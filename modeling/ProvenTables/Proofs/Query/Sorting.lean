import ProvenTables.Proofs.Scalar.Order
import ProvenTables.Query.Plan

/-!
# Sorting of rows

Rows are sorted by insertion, and rows that compare as equal keep the order that they had. So sorting rows
that already are in one order puts them in the lexicographic order of the new comparison and the old one
(`exists_sortRows`). The rows are taken as the images of items that are compared themselves, since equal rows
may stand at different places.
-/

namespace ProvenTables.Query

open Std

/-! ## Comparisons -/

/-- The order of scores is transitive, with the undefined ones last. -/
instance : TransCmp orderScores where
  eq_swap {a b} := by
    cases a with
    | none => cases b <;> rfl
    | some x =>
      cases b with
      | none => rfl
      | some y =>
        have hswap : y.totalCompare x = (x.totalCompare y).swap := OrientedCmp.eq_swap
        exact hswap
  isLE_trans {a b c} hab hbc := by
    cases b with
    | none =>
      cases a with
      | none => exact hbc
      | some x =>
        cases c with
        | none => rfl
        | some z => cases hbc
    | some y =>
      cases a with
      | none => cases hab
      | some x =>
        cases c with
        | none => rfl
        | some z =>
          -- the scores are compared the other way round
          have hzx : (z.totalCompare x).isLE := TransCmp.isLE_trans hbc hab
          exact hzx

variable {ι κ : Type}

/-- Items are compared by what they are mapped to. -/
lemma transCmp_comap (cmp : κ → κ → Ordering) [TransCmp cmp] (g : ι → κ) :
    TransCmp fun a b => cmp (g a) (g b) where
  eq_swap := OrientedCmp.eq_swap
  isLE_trans := TransCmp.isLE_trans

/-! ## Insertion -/

variable {cmp tie : ι → ι → Ordering}

/-- A tie is decided by the second order. -/
lemma compareLex_eq_lt_of_isLE {i j : ι} (hle : (cmp i j).isLE) (htie : tie i j = .lt) :
    compareLex cmp tie i j = .lt := by
  rw [compareLex, Ordering.then_eq_lt]
  exact (Ordering.isLE_iff_eq_lt_or_eq_eq.1 hle).imp_right fun heq => ⟨heq, htie⟩

/-- What comes first comes not after in the first order. -/
lemma isLE_of_compareLex_eq_lt {i j : ι} (h : compareLex cmp tie i j = .lt) : (cmp i j).isLE := by
  rw [compareLex, Ordering.then_eq_lt] at h
  exact Ordering.isLE_iff_eq_lt_or_eq_eq.2 (h.imp_right And.left)

variable [TransCmp cmp] {f : ι → Row} {order : Row → Row → Ordering}

/-- An item that ties put behind all others is inserted in order; the greatest item comes first. -/
lemma exists_insertRow {j : ι} {is : List ι} (horder : ∀ i ∈ is, order (f j) (f i) = cmp j i)
    (htie : ∀ i ∈ is, tie i j = .lt) (h : is.Pairwise fun a b => compareLex cmp tie b a = .lt) :
    ∃ js : List ι, insertRow order (f j) (is.map f) = js.map f ∧ js.Perm (j :: is) ∧
      js.Pairwise fun a b => compareLex cmp tie b a = .lt := by
  induction is with
  | nil => exact ⟨[j], rfl, .refl _, List.pairwise_singleton _ _⟩
  | cons i is ih =>
    obtain ⟨hi, his⟩ := List.pairwise_cons.1 h
    rw [List.map_cons, insertRow, horder i List.mem_cons_self]
    by_cases hlt : cmp j i = .lt
    · obtain ⟨js, hjs, hperm, hsorted⟩ := ih (fun k hk => horder k (List.mem_cons_of_mem _ hk))
        (fun k hk => htie k (List.mem_cons_of_mem _ hk)) his
      refine ⟨i :: js, by rw [if_pos hlt, hjs, List.map_cons], (hperm.cons i).trans (.swap j i is), ?_⟩
      refine List.pairwise_cons.2 ⟨fun k hk => ?_, hsorted⟩
      rcases List.mem_cons.1 (hperm.subset hk) with rfl | hk
      · exact Ordering.then_eq_lt.2 (.inl hlt)
      · exact hi k hk
    · refine ⟨j :: i :: is, by rw [if_neg hlt]; rfl, .refl _, List.pairwise_cons.2 ⟨fun k hk => ?_, h⟩⟩
      have hij : (cmp i j).isLE := OrientedCmp.isGE_iff_isLE.1 (Ordering.isGE_iff_ne_lt.2 hlt)
      refine compareLex_eq_lt_of_isLE ?_ (htie k hk)
      rcases List.mem_cons.1 hk with rfl | hk
      · exact hij
      · exact TransCmp.isLE_trans (isLE_of_compareLex_eq_lt (hi k hk)) hij

/-! ## Sorting -/

/-- Sorting one more row inserts it from behind into the sorted ones. -/
lemma sortRows_concat (order : Row → Row → Ordering) (rows : List Row) (r : Row) :
    sortRows order (rows ++ [r]) = (insertRow order r (sortRows order rows).reverse).reverse := by
  rw [sortRows, sortRows, List.foldl_append, List.reverse_reverse]
  rfl

/-- Sorting puts rows in the new order, and rows that it compares as equal keep the order before. -/
theorem exists_sortRows (order : Row → Row → Ordering) (f : ι → Row) {is : List ι}
    (horder : ∀ i ∈ is, ∀ j ∈ is, order (f i) (f j) = cmp i j)
    (h : is.Pairwise fun a b => tie a b = .lt) :
    ∃ js : List ι, sortRows order (is.map f) = js.map f ∧ js.Perm is ∧
      js.Pairwise fun a b => compareLex cmp tie a b = .lt := by
  induction is using List.reverseRecOn with
  | nil => exact ⟨[], rfl, .refl _, .nil⟩
  | append_singleton is j ih =>
    have hbefore : ∀ i ∈ is, i ∈ is ++ [j] := fun i hi => List.mem_append_left _ hi
    have hlast : j ∈ is ++ [j] := List.mem_append_right _ List.mem_cons_self
    obtain ⟨his, -, htie⟩ := List.pairwise_append.1 h
    obtain ⟨ks, hks, hperm, hsorted⟩ :=
      ih (fun a ha b hb => horder a (hbefore a ha) b (hbefore b hb)) his
    have hmem : ∀ k ∈ ks.reverse, k ∈ is := fun k hk => hperm.subset (List.mem_reverse.1 hk)
    obtain ⟨js, hjs, hinserted, hjs'⟩ := exists_insertRow
      (fun k hk => horder j hlast k (hbefore k (hmem k hk)))
      (fun k hk => htie k (hmem k hk) j List.mem_cons_self) (List.pairwise_reverse.2 hsorted)
    refine ⟨js.reverse, ?_, ?_, List.pairwise_reverse.2 hjs'⟩
    · rw [List.map_append, List.map_singleton, sortRows_concat, hks, ← List.map_reverse, hjs,
        List.map_reverse]
    · have hcons := ((List.reverse_perm ks).trans hperm).cons j
      exact (List.reverse_perm js).trans
        (hinserted.trans (hcons.trans (List.perm_append_singleton j is).symm))

end ProvenTables.Query
