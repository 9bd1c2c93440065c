/-!
What a program may do with files. A path that cannot be read or written is an answer here, not an
exception.
-/

namespace VmMetadata

class MonadFiles (m : Type → Type) where
  /-- The contents of a file of UTF-8 text. -/
  readText? : String → m (Option String)
  workingDirectory : m String
  /-- The absolute path without dots of something that exists. -/
  canonical? : String → m (Option String)
  /-- Makes a directory and those above it, and says whether it is there. -/
  createDirectories : String → m Bool
  /-- Makes a file, or empties one, and says whether that worked. -/
  createFile : String → m Bool
  /-- Sets the contents of a file that was made, and says whether that worked. -/
  writeFile : String → String → m Bool

end VmMetadata
