import VmMetadata.Proofs.Session.Classes
import VmMetadata.Proofs.Session.Closing

/-!
The sessions that a client can get to. A client makes one query after the other on views that it
has been given, and may call the machine directly in between; queries that fail count as well.
Main statement: every session that is reached from a sound one is sound.
-/

namespace VmMetadata

open Query (Agree Agrees Runs)

/-- The session that the query leaves, whether it fails or not. -/
def Query.leaves (x : Query α) (s : Session) : Session :=
  match x s with
  | .ok _ t => t
  | .error _ t => t

theorem Query.Runs.leaves {x : Query α} {s : Session} {P : α → Session → Prop} {E : Prop}
    (h : Runs x s P E) : s.Later (x.leaves s) ∧ (x.leaves s).Sound := by
  unfold Query.leaves
  cases h with
  | ok run later sound _ | error run later sound _ =>
      rw [run]
      exact ⟨later, sound⟩

namespace Session

/-- What can be asked in a session. -/
inductive Offers (s : Session) : {α : Type} → Query α → Prop
  | call (c : Call r) : Offers s (Query.ask c)
  | domain : Offers s Query.domain
  | corlib : Offers s Query.corlib
  | assemblies {d : Domain} (shown : s.Shows d) : Offers s d.assemblies
  | assemblyName {a : Assembly} (shown : s.Shows a) : Offers s a.name
  | assemblyImage {a : Assembly} (shown : s.Shows a) : Offers s a.image
  | imageName {i : Image} (shown : s.Shows i) : Offers s i.name
  | classCount {i : Image} (shown : s.Shows i) : Offers s i.classCount
  | classStart {i : Image} (shown : s.Shows i) : Offers s i.classStart
  | classes {i : Image} (shown : s.Shows i) : Offers s i.classes
  | classImage {c : Class} (shown : s.Shows c) : Offers s c.image
  | classParent {c : Class} (shown : s.Shows c) : Offers s c.parent
  | classMethods {c : Class} (shown : s.Shows c) : Offers s c.methods
  | classType {c : Class} (shown : s.Shows c) : Offers s c.type
  | typeObject {t : TypeView} (shown : s.Shows t) : Offers s t.object
  | inflate {c : Class} {cs : List Class} (shown : s.Shows c) (arguments : ∀ d ∈ cs, s.Shows d) :
      Offers s (c.inflate cs)
  | instantiate {m : Method} {cs : List Class} (shown : s.Shows m)
      (arguments : ∀ d ∈ cs, s.Shows d) : Offers s (m.inflate cs)

/-- A client gets from the one session to the other. -/
inductive Reaches (s : Session) : Session → Prop
  | start : Reaches s s
  | query {t : Session} (reached : Reaches s t) {x : Query α} (offered : t.Offers x) :
      Reaches s (x.leaves t)

variable {s t : Session}

theorem Offers.leaves (hs : s.Sound) {x : Query α} (h : s.Offers x) :
    s.Later (x.leaves s) ∧ (x.leaves s).Sound := by
  have alike := Alike.refl hs
  cases h with
  | call c => exact (Runs.ask hs (Vm.answer_steps hs.vm c)).leaves
  | domain => exact (Query.domain_agrees alike).runs.leaves
  | corlib => exact (Query.corlib_agrees alike).runs.leaves
  | assemblies shown => exact (Domain.assemblies_agrees alike shown).runs.leaves
  | assemblyName shown => exact (Assembly.name_agrees alike shown).runs.leaves
  | assemblyImage shown => exact (Assembly.image_agrees alike shown).runs.leaves
  | imageName shown => exact (Image.name_agrees alike shown).runs.leaves
  | classCount shown => exact (Image.classCount_runs hs shown).leaves
  | classStart shown => exact (Image.classStart_runs hs shown).leaves
  | classes shown => exact (Image.classes_runs hs shown).leaves
  | classImage shown => exact (Class.image_agrees alike shown).runs.leaves
  | classParent shown => exact (Class.parent_agrees alike shown).runs.leaves
  | classMethods shown => exact (Class.methods_agrees alike shown).runs.leaves
  | classType shown => exact (Class.type_agrees alike shown).runs.leaves
  | typeObject shown => exact (TypeView.object_agrees alike shown).runs.leaves
  | inflate shown arguments => exact (Class.inflate_agrees alike shown arguments).runs.leaves
  | instantiate shown arguments => exact (Method.inflate_agrees alike shown arguments).runs.leaves

/-- What is reached from a sound session is sound, and nothing that was true has become false. -/
theorem Reaches.sound (hs : s.Sound) (h : s.Reaches t) : s.Later t ∧ t.Sound := by
  induction h with
  | start => exact ⟨.refl s, hs⟩
  | query _ offered ih =>
      obtain ⟨later, sound⟩ := ih
      have hleaves := offered.leaves sound
      exact ⟨later.trans hleaves.1, hleaves.2⟩

end Session

end VmMetadata
