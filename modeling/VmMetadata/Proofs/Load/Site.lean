import Mathlib.Data.List.Nodup
import Mathlib.Data.List.Range
import VmMetadata.Proofs.Load.Growth

/-!
Where the images of a snapshot come to lie. Each image is followed by its classes, of which each is
followed by its type, and these by the assembly. So the handles of all of them follow from the
description alone, and the classes of two images never share a handle.
-/

namespace VmMetadata

open Arena (handleAt)

/-- An image, the position where it comes to lie, and how many classes come before its own. -/
structure Site where
  name : String
  described : List ClassDescription
  position : Nat
  start : Nat

namespace Site

def image (p : Site) : Handle :=
  handleAt p.position

def classes (p : Site) : List Handle :=
  (List.range' (p.position + 1) p.described.length 2).map handleAt

/-- The assembly lies behind the classes. -/
def assembly (p : Site) : Handle :=
  handleAt (p.position + 1 + 2 * p.described.length)

@[simp] theorem length_classes (p : Site) : p.classes.length = p.described.length := by
  simp [classes]

theorem mem_classes {p : Site} {h : Handle} :
    h ∈ p.classes ↔ ∃ j < p.described.length, h = handleAt (p.position + 1 + 2 * j) := by
  simp only [classes, List.mem_map, List.mem_range']
  constructor
  · rintro ⟨_, ⟨j, hj, rfl⟩, rfl⟩
    exact ⟨j, hj, rfl⟩
  · rintro ⟨j, hj, rfl⟩
    exact ⟨_, ⟨j, hj, rfl⟩, rfl⟩

theorem nodup_classes (p : Site) : p.classes.Nodup :=
  (List.nodup_range' 2).map fun _ _ => Arena.handleAt_injective

/-- The image as it lies in the arena. -/
def node (p : Site) : ImageNode where
  name := p.name
  classes := p.classes.toArray
  classStart := word32 p.start

theorem size_classes_node (p : Site) : p.node.classes.size = p.described.length := by
  simp [node]

end Site

/-- The sites of assemblies that are laid out from a position on. -/
def sitesFrom : Nat → Nat → List AssemblyDescription → List Site
  | _, _, [] => []
  | position, start, a :: rest =>
      ⟨a.image, a.classes, position, start⟩ ::
        sitesFrom (position + 2 + 2 * a.classes.length) (start + a.classes.length) rest

/-- The position behind those sites. -/
def positionAfter : Nat → List AssemblyDescription → Nat
  | position, [] => position
  | position, a :: rest => positionAfter (position + 2 + 2 * a.classes.length) rest

namespace Snapshot

/-- The sites of the assemblies, behind the domain. -/
def sites (s : Snapshot) : List Site :=
  sitesFrom 1 0 s.assemblies

/-- The site of a core library that is made up, behind all assemblies. -/
def madeUpSite (s : Snapshot) : Site :=
  ⟨corlibImage, builtinCorlib, positionAfter 1 s.assemblies, 0⟩

/-- The sites of all images. A core library is made up where no image has its name. -/
def images (s : Snapshot) : List Site :=
  if ∃ p ∈ s.sites, p.name = corlibImage then s.sites else s.sites ++ [s.madeUpSite]

/-- The site of the core library: the last image of its name, else the one that is made up. -/
def corlibSite (s : Snapshot) : Site :=
  (s.sites.reverse.find? fun p => p.name = corlibImage).getD s.madeUpSite

/-- How many classes the snapshot describes. -/
def classCount (s : Snapshot) : Nat :=
  (s.assemblies.flatMap fun a => a.classes).length

end Snapshot

theorem mem_sitesFrom_position {p : Site} : ∀ {position start : Nat}
    {as : List AssemblyDescription}, p ∈ sitesFrom position start as → position ≤ p.position
  | _, _, [], h => by simp [sitesFrom] at h
  | position, start, a :: rest, h => by
      rcases List.mem_cons.mp h with rfl | h
      · exact Nat.le_refl _
      · have := mem_sitesFrom_position h
        omega

theorem mem_sitesFrom_described {p : Site} : ∀ {position start : Nat}
    {as : List AssemblyDescription}, p ∈ sitesFrom position start as →
      ∃ a ∈ as, p.name = a.image ∧ p.described = a.classes
  | _, _, [], h => by simp [sitesFrom] at h
  | _, _, a :: rest, h => by
      rcases List.mem_cons.mp h with rfl | h
      · exact ⟨a, List.mem_cons_self, rfl, rfl⟩
      · obtain ⟨b, hb, hp⟩ := mem_sitesFrom_described h
        exact ⟨b, List.mem_cons_of_mem a hb, hp⟩

theorem length_flatMap_classes : ∀ (position start : Nat) (as : List AssemblyDescription),
    ((sitesFrom position start as).flatMap Site.classes).length =
      (as.flatMap fun a => a.classes).length
  | _, _, [] => rfl
  | _, _, a :: rest => by
      rw [sitesFrom, List.flatMap_cons, List.flatMap_cons, List.length_append, List.length_append,
        Site.length_classes, length_flatMap_classes _ _ rest]

/-- The classes of a site follow the classes of all sites before it. -/
theorem sitesFrom_window {p : Site} : ∀ {position start : Nat}
    {as : List AssemblyDescription}, p ∈ sitesFrom position start as →
      ∃ before after, (sitesFrom position start as).flatMap Site.classes =
        before ++ p.classes ++ after ∧ p.start = start + before.length
  | _, _, [], h => by simp [sitesFrom] at h
  | position, start, a :: rest, h => by
      rcases List.mem_cons.mp h with rfl | h
      · exact ⟨[], _, rfl, rfl⟩
      · obtain ⟨before, after, heq, hstart⟩ := sitesFrom_window h
        refine ⟨Site.classes ⟨a.image, a.classes, position, start⟩ ++ before, after, ?_, ?_⟩
        · simp [sitesFrom, heq]
        · rw [hstart, List.length_append, Site.length_classes, Nat.add_assoc]

theorem lt_of_mem_classes_sitesFrom {h : Handle} {position start : Nat}
    {as : List AssemblyDescription}
    (hh : h ∈ (sitesFrom position start as).flatMap Site.classes) :
    ∃ i, position < i ∧ h = handleAt i := by
  obtain ⟨p, hp, hh⟩ := List.mem_flatMap.mp hh
  obtain ⟨j, _, rfl⟩ := Site.mem_classes.mp hh
  have := mem_sitesFrom_position hp
  exact ⟨_, by omega, rfl⟩

theorem nodup_classes_sitesFrom : ∀ (position start : Nat) (as : List AssemblyDescription),
    ((sitesFrom position start as).flatMap Site.classes).Nodup
  | _, _, [] => List.nodup_nil
  | position, start, a :: rest => by
      rw [sitesFrom, List.flatMap_cons]
      refine (Site.nodup_classes _).append (nodup_classes_sitesFrom _ _ rest) ?_
      intro h hh hrest
      obtain ⟨j, hj, rfl⟩ := Site.mem_classes.mp hh
      obtain ⟨i, hi, heq⟩ := lt_of_mem_classes_sitesFrom hrest
      have := Arena.handleAt_injective heq
      simp only at hj this
      omega

theorem le_positionAfter (position : Nat) (as : List AssemblyDescription) :
    position ≤ positionAfter position as := by
  induction as generalizing position with
  | nil => exact Nat.le_refl position
  | cons a rest ih => exact Nat.le_trans (by omega) (ih _)

theorem lt_positionAfter_of_mem {p : Site} : ∀ {position start : Nat}
    {as : List AssemblyDescription}, p ∈ sitesFrom position start as →
      p.position + 1 + 2 * p.described.length < positionAfter position as
  | _, _, [], h => by simp [sitesFrom] at h
  | position, _, a :: rest, h => by
      rcases List.mem_cons.mp h with rfl | h
      · have := le_positionAfter (position + 2 + 2 * a.classes.length) rest
        simp only [positionAfter]
        omega
      · rw [positionAfter]
        exact lt_positionAfter_of_mem h

namespace Snapshot

theorem corlibSite_cases (s : Snapshot) :
    (s.corlibSite ∈ s.sites ∧ s.corlibSite.name = corlibImage) ∨
      ((∀ p ∈ s.sites, p.name ≠ corlibImage) ∧ s.corlibSite = s.madeUpSite) := by
  unfold corlibSite
  cases hf : s.sites.reverse.find? fun p => p.name = corlibImage with
  | some p =>
      exact Or.inl ⟨List.mem_reverse.mp (List.mem_of_find?_eq_some hf),
        by simpa using List.find?_some hf⟩
  | none =>
      refine Or.inr ⟨fun p hp => ?_, rfl⟩
      simpa using List.find?_eq_none.mp hf p (List.mem_reverse.mpr hp)

theorem mem_images {s : Snapshot} {p : Site} :
    p ∈ s.images ↔
      p ∈ s.sites ∨ ((∀ q ∈ s.sites, q.name ≠ corlibImage) ∧ p = s.madeUpSite) := by
  unfold images
  split
  · rename_i h
    refine ⟨Or.inl, fun hp => hp.resolve_right fun hnone => ?_⟩
    obtain ⟨q, hq, hname⟩ := h
    exact hnone.1 q hq hname
  · rename_i h
    rw [List.mem_append, List.mem_singleton]
    refine or_congr_right ⟨fun hp => ⟨fun q hq hname => h ⟨q, hq, hname⟩, hp⟩, And.right⟩

theorem corlibSite_mem (s : Snapshot) : s.corlibSite ∈ s.images := by
  rw [mem_images]
  rcases s.corlibSite_cases with ⟨hmem, _⟩ | h
  · exact Or.inl hmem
  · exact Or.inr h

/-- No two classes share a handle, those of a made-up core library included. -/
theorem nodup_classes (s : Snapshot) : (s.images.flatMap Site.classes).Nodup := by
  have hsites := nodup_classes_sitesFrom 1 0 s.assemblies
  unfold images
  split
  · exact hsites
  · rw [List.flatMap_append, List.flatMap_singleton]
    refine hsites.append s.madeUpSite.nodup_classes fun h hh hup => ?_
    obtain ⟨p, hp, hh⟩ := List.mem_flatMap.mp hh
    obtain ⟨j, hj, rfl⟩ := Site.mem_classes.mp hh
    obtain ⟨k, _, heq⟩ := Site.mem_classes.mp hup
    have hlt := lt_positionAfter_of_mem hp
    have := Arena.handleAt_injective heq
    simp only [madeUpSite] at this
    omega

end Snapshot

end VmMetadata
