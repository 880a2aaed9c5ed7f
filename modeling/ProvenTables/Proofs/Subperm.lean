import Mathlib.Tactic
import ProvenTables.Proofs.Traverse

/-!
# Lists within lists

One list is within another if it has no item more often, in whatever order. What is made item by item
of a list within another is within what is made of the other.
-/

namespace ProvenTables

variable {α β ε : Type}

/-- Filtering keeps that all elements occur among others, each at most as often. -/
lemma subperm_filterMap {xs ys : List α} (f : α → Option β) (h : xs.Subperm ys) :
    (xs.filterMap f).Subperm (ys.filterMap f) := by
  obtain ⟨zs, hperm, hsub⟩ := List.subperm_iff.1 h
  exact List.subperm_iff.2 ⟨zs.filterMap f, hperm.filterMap f, hsub.filterMap f⟩

/-- A function that is applied to all elements keeps that they occur among others. -/
lemma subperm_map {xs ys : List α} (f : α → β) (h : xs.Subperm ys) :
    (xs.map f).Subperm (ys.map f) := by
  rw [← List.filterMap_eq_map]
  exact subperm_filterMap _ h

/-- The elements of lists that occur among others occur among their elements. -/
lemma subperm_flatten {xss yss : List (List α)} (h : xss.Subperm yss) :
    xss.flatten.Subperm yss.flatten := by
  obtain ⟨zss, hperm, hsub⟩ := List.subperm_iff.1 h
  exact List.subperm_iff.2 ⟨zss.flatten, hperm.flatten, hsub.flatten⟩

/-- The parts of a list are within the list if each is within its own part of it. -/
lemma subperm_flatten_of_forall₂ {xss yss : List (List α)} (h : List.Forall₂ List.Subperm xss yss) :
    xss.flatten.Subperm yss.flatten := by
  induction h with
  | nil => exact List.Subperm.refl _
  | cons hxs _ ih => exact hxs.append ih

/-- Where a function gives a result on every element, its results are those that filtering gives. -/
lemma filterMap_of_mapM_some {f : α → Option β} {xs : List α} {ys : List β}
    (h : xs.mapM f = some ys) : xs.filterMap f = ys := by
  have hall := forall₂_of_mapM_some h
  clear h
  induction hall with
  | nil => rfl
  | cons hy _ ih => rw [List.filterMap_cons, hy, ih]

/-- Work that succeeds on a list succeeds on every list within it, with results within the results. -/
lemma exists_mapM_of_subperm {f : α → Except ε β} {xs ys : List α} {bs : List β}
    (h : xs.Subperm ys) (hbs : ys.mapM f = .ok bs) : ∃ as, xs.mapM f = .ok as ∧ as.Subperm bs := by
  obtain ⟨zs, hperm, hsub⟩ := List.subperm_iff.1 h
  obtain ⟨cs, hcs, hcsperm⟩ := List.perm_comp_forall₂ hperm (mapM_eq_ok_iff.1 hbs)
  suffices hkeep : ∃ as, List.Forall₂ (fun x y => f x = .ok y) xs as ∧ as.Sublist cs by
    obtain ⟨as, has, hassub⟩ := hkeep
    exact ⟨as, mapM_eq_ok_iff.2 has, hassub.subperm.trans hcsperm.subperm⟩
  clear hperm h hbs hcsperm
  induction hsub generalizing cs with
  | slnil => exact ⟨[], .nil, List.nil_sublist _⟩
  | cons z _ ih =>
    cases hcs with
    | cons _ hrest =>
      obtain ⟨as, has, hassub⟩ := ih _ hrest
      exact ⟨as, has, hassub.cons _⟩
  | cons_cons z _ ih =>
    cases hcs with
    | cons hz hrest =>
      obtain ⟨as, has, hassub⟩ := ih _ hrest
      exact ⟨_ :: as, .cons hz has, hassub.cons_cons _⟩

end ProvenTables
