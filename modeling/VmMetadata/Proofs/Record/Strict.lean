import VmMetadata.Proofs.Record.Fields

/-!
Strict readers. A reader is strict for a shape if the shape says of every object inside a value
that the reader accepts which members it may have, and one more member in any of these objects
makes the reader reject the value. Main statement: a closed record whose fields are read strictly
is read strictly.
-/

namespace VmMetadata.Record

open Document List

/-! ## Places -/

/-- One step from a value to a part of it: an item of an array or a member of an object, with what
stands before it and after it. -/
inductive Hole
  | item (before after : List Json)
  | member (before : List (String × Json)) (name : String) (after : List (String × Json))

def Hole.fill : Hole → Json → Json
  | .item before after, v => .arr (before ++ v :: after)
  | .member before name after, v => .obj (before ++ (name, v) :: after)

/-- The value that has the part at the place, the outermost step first. -/
def within : List Hole → Json → Json
  | [], v => v
  | hole :: place, v => hole.fill (within place v)

/-! ## Shapes -/

/-- Which members the objects in a value may have. -/
inductive Shape
  /-- A value without fields. -/
  | leaf
  | list (item : Shape)
  | record (fields : List (String × Shape))

namespace Shape

/-- The fields that an object of the shape may have. -/
def names : Shape → List String
  | .record fields => fields.map Prod.fst
  | _ => []

/-- The shape of a part. The fields of a record that is written as an array stand in order. -/
def down : Shape → Hole → Option Shape
  | .list item, .item _ _ => some item
  | .record fields, .item before _ => fields[before.length]?.map Prod.snd
  | .record fields, .member _ name _ => fields.lookup name
  | _, _ => none

/-- The shape of the part at the place. -/
def at_ (shape : Shape) : List Hole → Option Shape
  | [] => some shape
  | hole :: place => (shape.down hole).bind fun part => part.at_ place

/-- Fields whose values have none. -/
def leaves (names : List String) : List (String × Shape) :=
  names.map (·, .leaf)

end Shape

/-- The reader accepts the document. -/
def Reads (read : δ → Option α) (d : δ) : Prop :=
  ∃ a, read d = some a

/-- Wherever an object stands in an accepted value, the shape says what its fields are, and with a
member more that is none of them the value is rejected. -/
def Strict (accepts : Json → Prop) (shape : Shape) : Prop :=
  ∀ place members, accepts (within place (.obj members)) →
    ∃ part, shape.at_ place = some part ∧
      ∀ before after name value, members = before ++ after → name ∉ part.names →
        ¬ accepts (within place (.obj (before ++ (name, value) :: after)))

/-! ## Values without records -/

/-- Nothing has to be shown where no accepted value holds an object. -/
theorem strict_of_scalar {accepts : Json → Prop} (harr : ∀ items, ¬ accepts (.arr items))
    (hobj : ∀ members, ¬ accepts (.obj members)) (shape : Shape) : Strict accepts shape := by
  intro place members h
  cases place with
  | nil => exact absurd h (hobj members)
  | cons hole place =>
      cases hole with
      | item before after => exact absurd h (harr _)
      | member before name after => exact absurd h (hobj _)

@[simp] theorem strict_text (shape : Shape) : Strict (Reads text?) shape :=
  strict_of_scalar (fun _ h => by cases h.choose_spec) (fun _ h => by cases h.choose_spec) shape

@[simp] theorem strict_bool (shape : Shape) : Strict (Reads bool?) shape :=
  strict_of_scalar (fun _ h => by cases h.choose_spec) (fun _ h => by cases h.choose_spec) shape

@[simp] theorem strict_unsigned (bits : Nat) (shape : Shape) :
    Strict (Reads (unsigned? bits)) shape := by
  apply strict_of_scalar
  · rintro items ⟨n, hn⟩
    cases (unsigned?_eq_some_iff.mp hn).1
  · rintro members ⟨n, hn⟩
    cases (unsigned?_eq_some_iff.mp hn).1

@[simp] theorem strict_int32 (shape : Shape) : Strict (Reads int32?) shape := by
  apply strict_of_scalar
  · rintro items ⟨n, hn⟩
    cases (int32?_eq_some_iff.mp hn).1
  · rintro members ⟨n, hn⟩
    cases (int32?_eq_some_iff.mp hn).1

/-- A choice that is written as an object has the chosen name for its only member. -/
theorem choice?_obj {members : List (String × Json)} (h : Reads choice? (Json.obj members)) :
    ∃ name, members = [(name, .null)] := by
  obtain ⟨s, hs⟩ := h
  simp only [choice?] at hs
  split at hs
  · rename_i heq
    cases heq
  · rename_i name heq
    cases heq
    exact ⟨name, rfl⟩
  · cases hs

theorem strict_choice {accepts : Json → Prop} (h : ∀ d, accepts d → Reads choice? d) :
    Strict accepts .leaf := by
  intro place members hd
  have hchoice := h _ hd
  rcases place with _ | ⟨⟨before, after⟩ | ⟨before, name, after⟩, place⟩
  · refine ⟨.leaf, rfl, ?_⟩
    rintro before after name value rfl - hmore
    -- two members are no choice
    obtain ⟨chosen, hone⟩ := choice?_obj hchoice
    obtain ⟨chosen', htwo⟩ := choice?_obj (h _ hmore)
    have h₁ := congrArg List.length hone
    have h₂ := congrArg List.length htwo
    simp at h₁ h₂
    omega
  · cases hchoice.choose_spec
  · -- the chosen name bears no object
    obtain ⟨chosen, hone⟩ := choice?_obj hchoice
    have hmem : (name, within place (.obj members)) ∈ [(chosen, Json.null)] := by
      rw [← hone]
      simp
    have hnull := (Prod.mk.inj (List.mem_singleton.mp hmem)).2
    rcases place with _ | ⟨⟨_, _⟩ | ⟨_, _, _⟩, _⟩ <;> cases hnull

/-! ## Lists and optional values -/

theorem strict_list {read : Json → Option α} {shape : Shape} (h : Strict (Reads read) shape) :
    Strict (Reads (list? read)) (.list shape) := by
  have hitems : ∀ items, Reads (list? read) (.arr items) → ∀ d ∈ items, Reads read d := by
    rintro items ⟨as, has⟩
    obtain ⟨_, heq, hread⟩ := list?_eq_some_iff.mp has
    cases heq
    rw [mapM_eq_some_iff] at hread
    clear has
    induction hread with
    | nil => simp
    | cons hd _ ih => exact List.forall_mem_cons.mpr ⟨⟨_, hd⟩, ih⟩
  intro place members hd
  rcases place with _ | ⟨⟨before, after⟩ | ⟨before, name, after⟩, place⟩
  · obtain ⟨as, has⟩ := hd
    cases has
  · obtain ⟨part, hpart, hmore⟩ := h place members (hitems _ hd _ (by simp))
    refine ⟨part, hpart, fun before' after' name value hmembers hname haccepted => ?_⟩
    exact hmore before' after' name value hmembers hname (hitems _ haccepted _ (by simp))
  · obtain ⟨as, has⟩ := hd
    cases has

theorem strict_optional {read : Json → Option α} {shape : Shape} (h : Strict (Reads read) shape) :
    Strict (fun d => Reads (optional read) (some d)) shape := by
  -- a place with an object in it is not null
  have hread : ∀ place members, Reads (optional read) (some (within place (.obj members))) →
      Reads read (within place (.obj members)) := by
    rintro place members ⟨o, ho⟩
    have hnull : isNull? (within place (.obj members)) = some false := by
      rcases place with _ | ⟨⟨_, _⟩ | ⟨_, _, _⟩, _⟩ <;> rfl
    simp only [optional, hnull] at ho
    obtain ⟨a, ha, -⟩ := Option.map_eq_some_iff.mp ho
    exact ⟨a, ha⟩
  intro place members hd
  obtain ⟨part, hpart, hmore⟩ := h place members (hread _ _ hd)
  refine ⟨part, hpart, fun before after name value hmembers hname haccepted => ?_⟩
  exact hmore before after name value hmembers hname (hread _ _ haccepted)

/-! ## Records -/

/-- Of a field that is there the reader of its value decides. -/
@[simp] theorem strict_required {read : Json → Option α} {shape : Shape} :
    Strict (fun d => Reads (required read) (some d)) shape ↔ Strict (Reads read) shape :=
  Iff.rfl

@[simp] theorem strict_withDefault {a : α} {read : Json → Option α} {shape : Shape} :
    Strict (fun d => Reads (withDefault a read) (some d)) shape ↔ Strict (Reads read) shape :=
  Iff.rfl

/-- What stands at a position of the first list has its partner there. -/
theorem partner_of_forall₂ {R : α → β → Prop} {as : List α} {bs : List β} (h : Forall₂ R as bs)
    {i : Nat} {a : α} (ha : as[i]? = some a) : ∃ b, bs[i]? = some b ∧ R a b := by
  obtain ⟨hi, rfl⟩ := List.getElem?_eq_some_iff.mp ha
  have hi' : i < bs.length := h.length_eq ▸ hi
  exact ⟨bs[i], List.getElem?_eq_getElem hi', h.get hi hi'⟩

section Record

variable {fields : List (String × Shape)} {accepts : List (Option Json → Prop)}

/-- A named field of a record: its shape is found under the name, and so is the condition on its
value, whatever values the names have. -/
theorem field_of_name {S : (Option Json → Prop) → Shape → Prop}
    (hfields : Forall₂ (fun accept field => S accept field.2) accepts fields) {name : String}
    (hname : name ∈ fields.map Prod.fst) :
    ∃ accept shape, fields.lookup name = some shape ∧ S accept shape ∧
      ∀ value : String → Option Json,
        Forall₂ (fun accept v => accept v) accepts ((fields.map Prod.fst).map value) →
          accept (value name) := by
  induction hfields with
  | nil => cases hname
  | @cons accept field accepts fields hfield _ ih =>
      by_cases heq : name = field.1
      · refine ⟨accept, field.2, ?_, hfield, ?_⟩
        · rw [heq, List.lookup_cons_self]
        · rintro value (_ | ⟨haccept, -⟩)
          rw [heq]
          exact haccept
      · have htail : name ∈ fields.map Prod.fst := by
          simpa [heq] using hname
        obtain ⟨accept', shape, hshape, hS, hvalue⟩ := ih htail
        refine ⟨accept', shape, ?_, hS, ?_⟩
        · rw [List.lookup_cons, beq_eq_false_iff_ne.mpr heq]
          exact hshape
        · rintro value (_ | ⟨-, hrest⟩)
          exact hvalue value hrest

/-- A closed record: the reader gets to see the fields, and each of them has to be accepted. -/
theorem strict_record {read : Json → Option α} (accepts : List (Option Json → Prop))
    (hread : ∀ d, Reads read d → ∃ values, fields? (fields.map Prod.fst) d = some values ∧
      Forall₂ (fun accept value => accept value) accepts values)
    (hfields : Forall₂ (fun accept field => Strict (fun d => accept (some d)) field.2)
      accepts fields) : Strict (Reads read) (.record fields) := by
  intro place members hd
  rcases place with _ | ⟨⟨before, after⟩ | ⟨before, name, after⟩, place⟩
  · -- the record itself
    refine ⟨_, rfl, ?_⟩
    rintro before after name value rfl hname hmore
    obtain ⟨values, hvalues, -⟩ := hread _ hmore
    exact hname ((fields?_obj_eq_some_iff.mp hvalues).1 (name, value) (by simp))
  · -- inside a field of a record that is written in order
    have hitem : ∀ d, Reads read (.arr (before ++ d :: after)) →
        ∃ accept, accepts[before.length]? = some accept ∧ accept (some d) := by
      intro d hd
      obtain ⟨values, hvalues, haccepts⟩ := hread _ hd
      obtain ⟨absent, rfl⟩ := fields?_arr_eq_some hvalues
      exact partner_of_forall₂ haccepts.flip (by simp)
    obtain ⟨accept, haccept, hpart⟩ := hitem _ hd
    obtain ⟨field, hfield, hstrict⟩ := partner_of_forall₂ hfields haccept
    obtain ⟨part, hat, hmore⟩ := hstrict place members hpart
    refine ⟨part, by simp [Shape.at_, Shape.down, hfield, hat], ?_⟩
    intro before' after' name value hmembers hname hd'
    obtain ⟨accept', haccept', hpart'⟩ := hitem _ hd'
    cases haccept.symm.trans haccept'
    exact hmore before' after' name value hmembers hname hpart'
  · -- inside a field of a record that is written by names
    have hmember : ∀ d, Reads read (.obj (before ++ (name, d) :: after)) →
        name ∈ fields.map Prod.fst ∧ ∃ value : String → Option Json, value name = some d ∧
          Forall₂ (fun accept v => accept v) accepts ((fields.map Prod.fst).map value) := by
      intro d hd
      obtain ⟨values, hvalues, haccepts⟩ := hread _ hd
      obtain ⟨hnames, hnodup, rfl⟩ := fields?_obj_eq_some_iff.mp hvalues
      refine ⟨hnames (name, d) (by simp), _, lookup_middle d ?_, haccepts⟩
      rw [List.map_append, List.map_cons] at hnodup
      exact fun h => (List.nodup_append.mp hnodup).2.2 name h name (by simp) rfl
    obtain ⟨hname, value, hvalue, haccepts⟩ := hmember _ hd
    obtain ⟨accept, shape, hshape, hstrict, haccept⟩ := field_of_name hfields hname
    have hpart := haccept value haccepts
    rw [hvalue] at hpart
    obtain ⟨part, hat, hmore⟩ := hstrict place members hpart
    refine ⟨part, by simp [Shape.at_, Shape.down, hshape, hat], ?_⟩
    intro before' after' name' v hmembers hname' hd'
    obtain ⟨-, value', hvalue', haccepts'⟩ := hmember _ hd'
    have hpart' := haccept value' haccepts'
    rw [hvalue'] at hpart'
    exact hmore before' after' name' v hmembers hname' hpart'

end Record

end VmMetadata.Record
