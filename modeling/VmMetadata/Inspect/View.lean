import Std.Data.TreeMap
import VmMetadata.Description
import VmMetadata.TypeKind

/-!
Views of metadata objects. A view is a handle that is not null together with a page in the notebook
of its session. What has been found out about the object through this view is noted on the page
and never asked for again. Two views of one object are equal as objects but have pages of their
own.
-/

namespace VmMetadata

open Std (TreeMap)

/-- The kinds of objects that can be viewed. -/
inductive Entity
  | domain | assembly | image | class_ | type | method | field | object | array
  deriving DecidableEq, Repr

namespace Entity

/-- What the kind is called where a handle of it is required. -/
def label : Entity → String
  | domain => "domain"
  | assembly => "assembly"
  | image => "image"
  | class_ => "class"
  | type => "type"
  | method => "method"
  | field => "field"
  | object => "object"
  | array => "array"

/-- The name of the kind in front of a handle. -/
def title : Entity → String
  | domain => "Domain"
  | assembly => "Assembly"
  | image => "Image"
  | class_ => "Class"
  | type => "Type"
  | method => "Method"
  | field => "Field"
  | object => "Object"
  | array => "Array"

end Entity

structure View (e : Entity) where
  handle : Handle
  page : Nat
  deriving DecidableEq, Repr

namespace View

def text (v : View e) : String :=
  e.title ++ "(" ++ v.handle.text ++ ")"

/-- Whether two views show the same object. -/
def same (v w : View e) : Bool :=
  v.handle == w.handle

end View

abbrev Domain := View .domain
abbrev Assembly := View .assembly
abbrev Image := View .image
abbrev Class := View .class_
abbrev TypeView := View .type
abbrev Method := View .method
abbrev Field := View .field
abbrev Object := View .object
abbrev ArrayView := View .array

/-- A formal parameter of a method. -/
structure Parameter where
  position : Nat
  name : String
  type : TypeView
  deriving DecidableEq, Repr

/-- The things that are noted once they are known. -/
inductive Fact
  | descriptor | rootClass | reflectionClass
  | domainAssemblies | domainAssembliesByName
  | assemblyImage | assemblyName
  | imageName | imageClassCount | imageClassStart | imageClasses | imageClassesByName
  | className | classNamespace | classImage | classParent | classDeclaring | classInterfaces
  | classFields | classMethods | classType | classFlags | classKind | classIsGeneric
  | classIsInflated | classParameterCount
  | typeName | typeKind | typeClass | typeObject
  | fieldName | fieldType | fieldOffset | fieldFlags
  | methodName | methodClass | methodReturnType | methodParameters | methodFlags
  | methodIsGeneric | methodIsInflated | methodTypeParameterCount | methodPointer
  | objectClass | arrayLength | hostClass
  deriving DecidableEq, Repr

/-- What is noted of a fact. -/
@[reducible] def Fact.Value : Fact → Type
  | descriptor | rootClass | reflectionClass => Handle
  | domainAssemblies => List Assembly
  | domainAssembliesByName => TreeMap String Assembly
  | assemblyImage => Image
  | assemblyName => String
  | imageName => String
  | imageClassCount | imageClassStart => Nat
  | imageClasses => List Class
  | imageClassesByName => TreeMap String Class
  | className | classNamespace => String
  | classImage => Image
  | classParent | classDeclaring => Option Class
  | classInterfaces => List Class
  | classFields => List Field
  | classMethods => List Method
  | classType => TypeView
  | classFlags => UInt32
  | classKind => ClassKind
  | classIsGeneric | classIsInflated => Bool
  | classParameterCount => Nat
  | typeName => String
  | typeKind => TypeKind
  | typeClass => Option Handle
  | typeObject => Handle
  | fieldName => String
  | fieldType => TypeView
  | fieldOffset => Int
  | fieldFlags => UInt32
  | methodName => String
  | methodClass => Class
  | methodReturnType => TypeView
  | methodParameters => List Parameter
  | methodFlags => UInt32
  | methodIsGeneric | methodIsInflated => Bool
  | methodTypeParameterCount => Nat
  | methodPointer => Nat
  | objectClass => Handle
  | arrayLength => Nat
  | hostClass => Option Class

/-- A fact with its value. -/
abbrev Note := (f : Fact) × f.Value

namespace Note

/-- The value of a fact, if it stands among the notes. -/
def find? (f : Fact) : List Note → Option f.Value
  | [] => none
  | ⟨g, v⟩ :: rest => if h : g = f then some (h ▸ v) else find? f rest

@[simp] theorem find?_cons_same (f : Fact) (v : f.Value) (rest : List Note) :
    find? f (⟨f, v⟩ :: rest) = some v := by
  simp [find?]

theorem find?_cons_of_ne {f g : Fact} (h : g ≠ f) (v : g.Value) (rest : List Note) :
    find? f (⟨g, v⟩ :: rest) = find? f rest := by
  simp [find?, h]

end Note

/-- A page: the object that its view shows, null for one that shows none, and what is noted. -/
structure Page where
  handle : Handle
  notes : List Note

/-- The notes of all views, a page for each. -/
structure Notebook where
  pages : Array Page

namespace Notebook

/-- A notebook whose only page is that of the session itself. -/
def new : Notebook := ⟨#[⟨.null, []⟩]⟩

/-- The page of the session itself. -/
def front : Nat := 0

/-- The page that the next view gets. -/
def next (n : Notebook) : Nat :=
  n.pages.size

def addPage (n : Notebook) (shown : Handle) : Notebook :=
  ⟨n.pages.push ⟨shown, []⟩⟩

/-- A new page with the notes of another one. -/
def copyPage (n : Notebook) (page : Nat) : Notebook :=
  ⟨n.pages.push (n.pages.getD page ⟨.null, []⟩)⟩

/-- The object that the view with the page shows. -/
def shown? (n : Notebook) (page : Nat) : Option Handle :=
  (n.pages[page]?).map Page.handle

def find? (n : Notebook) (page : Nat) (f : Fact) : Option f.Value :=
  (n.pages[page]?).bind fun p => Note.find? f p.notes

def add (n : Notebook) (page : Nat) (f : Fact) (v : f.Value) : Notebook :=
  ⟨n.pages.modify page fun p => { p with notes := ⟨f, v⟩ :: p.notes }⟩

theorem find?_add_same (n : Notebook) {page : Nat} (f : Fact) (v : f.Value)
    (h : page < n.pages.size) : (n.add page f v).find? page f = some v := by
  simp [find?, add, h, Array.getElem_modify]

end Notebook

end VmMetadata
