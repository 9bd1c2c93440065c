import Mathlib.Data.List.Basic
import VmMetadata.Inspect.View

/-!
What stands in a notebook after a note was added, or a page was begun or copied. A note goes to its
own page under its own fact; pages keep the object that they show.
-/

namespace VmMetadata.Notebook

variable {n : Notebook} {page : Nat} {h : Handle}

theorem lt_size_of_shown? (hp : n.shown? page = some h) : page < n.pages.size := by
  obtain ⟨p, hp, _⟩ := Option.map_eq_some_iff.mp hp
  exact (Array.getElem?_eq_some_iff.mp hp).1

/-! ## A note is added -/

@[simp] theorem next_add (n : Notebook) (page : Nat) (f : Fact) (v : f.Value) :
    (n.add page f v).next = n.next := by
  simp [add, next]

@[simp] theorem shown?_add (n : Notebook) (page : Nat) (f : Fact) (v : f.Value) (other : Nat) :
    (n.add page f v).shown? other = n.shown? other := by
  unfold shown? add
  rw [Array.getElem?_modify]
  split
  · rw [Option.map_map]
    rfl
  · rfl

theorem find?_add_of_page_ne {other : Nat} (hne : other ≠ page) (f : Fact) (v : f.Value)
    (g : Fact) : (n.add page f v).find? other g = n.find? other g := by
  unfold find? add
  rw [Array.getElem?_modify, if_neg (Ne.symm hne)]

theorem find?_add_of_fact_ne {f g : Fact} (hne : f ≠ g) (v : f.Value) (other : Nat) :
    (n.add page f v).find? other g = n.find? other g := by
  by_cases hp : other = page
  · subst hp
    unfold find? add
    rw [Array.getElem?_modify, if_pos rfl]
    cases n.pages[other]? with
    | none => rfl
    | some p => exact Note.find?_cons_of_ne hne v p.notes
  · exact find?_add_of_page_ne hp f v g

/-- Elsewhere nothing changes: neither on another page nor under another fact. -/
theorem find?_add_of_ne {other : Nat} {f g : Fact} (hne : ¬(other = page ∧ f = g))
    (v : f.Value) : (n.add page f v).find? other g = n.find? other g := by
  rcases not_and_or.mp hne with hpage | hfact
  · exact find?_add_of_page_ne hpage f v g
  · exact find?_add_of_fact_ne hfact v other

/-! ## A page is begun -/

@[simp] theorem next_addPage (n : Notebook) (h : Handle) : (n.addPage h).next = n.next + 1 := by
  simp [addPage, next]

theorem shown?_addPage (n : Notebook) (h : Handle) (page : Nat) :
    (n.addPage h).shown? page = if page = n.next then some h else n.shown? page := by
  unfold shown? addPage next
  rw [Array.getElem?_push]
  split <;> rfl

theorem find?_addPage (n : Notebook) (h : Handle) (page : Nat) (f : Fact) :
    (n.addPage h).find? page f = n.find? page f := by
  unfold find? addPage
  rw [Array.getElem?_push]
  split
  · rename_i heq
    subst heq
    rw [Array.getElem?_eq_none (Nat.le_refl _)]
    rfl
  · rfl

theorem shown?_addPage_of_shown? (hp : n.shown? page = some h) (k : Handle) :
    (n.addPage k).shown? page = some h := by
  rw [shown?_addPage, if_neg, hp]
  have := lt_size_of_shown? hp
  unfold next
  omega

/-! ## A page is copied -/

section

variable (hp : n.shown? page = some h)
include hp

theorem shown?_copyPage (other : Nat) :
    (n.copyPage page).shown? other = if other = n.next then some h else n.shown? other := by
  obtain ⟨p, hpage, rfl⟩ := Option.map_eq_some_iff.mp hp
  unfold shown? copyPage next
  rw [Array.getElem?_push, Array.getD_eq_getD_getElem?, hpage]
  split <;> rfl

/-- The copy of a page has the notes of the page. -/
theorem find?_copyPage (other : Nat) (f : Fact) :
    (n.copyPage page).find? other f =
      if other = n.next then n.find? page f else n.find? other f := by
  obtain ⟨p, hpage, rfl⟩ := Option.map_eq_some_iff.mp hp
  unfold find? copyPage next
  rw [Array.getElem?_push, Array.getD_eq_getD_getElem?, hpage]
  split <;> rfl

end

end VmMetadata.Notebook
