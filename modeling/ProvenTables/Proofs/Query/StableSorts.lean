import ProvenTables.Proofs.Query.Sorting

/-!
# Stable sorts

A sort may ask of a comparison that it is a total order up to ties, and fail otherwise. The comparison of
cells is one, and only a value ties with itself (`order_linear`). So there is one way to sort values, and there
is one way to sort rows by their cells if rows that tie keep their order, whatever algorithm finds it.
-/

namespace ProvenTables.Query

open Std

variable {α : Type} {cmp order : α → α → Ordering} {before after xs ys : List α}

/-- Whether a comparison is a total order of the items with a property, up to ties. -/
structure IsTotalOn (cmp : α → α → Ordering) (P : α → Prop) : Prop where
  total : ∀ a b, P a → P b → (cmp a b).isLE ∨ (cmp b a).isLE
  swap : ∀ a b, P a → P b → cmp b a = (cmp a b).swap
  trans : ∀ a b c, P a → P b → P c → (cmp a b).isLE → (cmp b c).isLE → (cmp a c).isLE

/-- Whether a list is a stable sort of another: it has the same items, each not greater than those behind it,
and items that tie have the order that they had. -/
structure IsStableSort (cmp : α → α → Ordering) (before after : List α) : Prop where
  perm : after.Perm before
  sorted : after.Pairwise fun a b => (cmp a b).isLE
  stable : ∀ a ∈ before, after.filter (cmp a · = .eq) = before.filter (cmp a · = .eq)

/-- A transitive comparison is total on any elements. -/
lemma isTotalOn_of_transCmp [TransCmp cmp] (P : α → Prop) : IsTotalOn cmp P where
  total a b _ _ := by
    have hswap : cmp b a = (cmp a b).swap := OrientedCmp.eq_swap
    rw [hswap]
    cases cmp a b <;> decide
  swap _ _ _ _ := OrientedCmp.eq_swap
  trans _ _ _ _ _ _ := TransCmp.isLE_trans

/-- A comparison that agrees with a total one on some elements is total on them. -/
lemma IsTotalOn.congr {P : α → Prop} (horder : ∀ a b, P a → P b → order a b = cmp a b)
    (h : IsTotalOn cmp P) : IsTotalOn order P where
  total a b ha hb := by
    rw [horder a b ha hb, horder b a hb ha]
    exact h.total a b ha hb
  swap a b ha hb := by
    rw [horder a b ha hb, horder b a hb ha]
    exact h.swap a b ha hb
  trans a b c ha hb hc := by
    rw [horder a b ha hb, horder b c hb hc, horder a c ha hc]
    exact h.trans a b c ha hb hc

/-- Items are only compared with each other. -/
lemma IsStableSort.congr (horder : ∀ a ∈ before, ∀ b ∈ before, order a b = cmp a b)
    (h : IsStableSort cmp before after) : IsStableSort order before after where
  perm := h.perm
  sorted := h.sorted.imp_of_mem fun {a b} ha hb hab => by
    rwa [horder a (h.perm.subset ha) b (h.perm.subset hb)]
  stable a ha := by
    have hfilter : ∀ l ⊆ before, l.filter (order a · = .eq) = l.filter (cmp a · = .eq) :=
      fun l hl => List.filter_congr fun b hb => by rw [horder a ha b (hl hb)]
    rw [hfilter after h.perm.subset, hfilter before fun _ => id, h.stable a ha]

/-! ## Uniqueness -/

section

variable [TransCmp cmp]

/-- The first item of a sorted list is not greater than any. -/
lemma isLE_of_mem_cons {x y : α} (h : (x :: xs).Pairwise fun a b => (cmp a b).isLE) (hy : y ∈ x :: xs) :
    (cmp x y).isLE := by
  rcases List.mem_cons.1 hy with rfl | hmem
  · exact ReflCmp.isLE_rfl
  · exact (List.pairwise_cons.1 h).1 y hmem

/-- Two sorted lists are one if they have the same items of each tie in the same order. -/
lemma eq_of_filter_eq (hxs : xs.Pairwise fun a b => (cmp a b).isLE) (hys : ys.Pairwise fun a b => (cmp a b).isLE)
    (hperm : xs.Perm ys) (h : ∀ a ∈ xs, xs.filter (cmp a · = .eq) = ys.filter (cmp a · = .eq)) : xs = ys := by
  induction xs generalizing ys with
  | nil => exact hperm.nil_eq
  | cons x xs ih =>
    cases ys with
    | nil => exact hperm.eq_nil
    | cons y ys =>
      -- each of the two first items is the least of all
      have hxy := isLE_of_mem_cons hxs (hperm.symm.subset List.mem_cons_self)
      have hyx := isLE_of_mem_cons hys (hperm.subset List.mem_cons_self)
      have hself : cmp x x = .eq := ReflCmp.compare_self
      have htie : cmp x y = .eq := OrientedCmp.isLE_antisymm hxy hyx
      have hfirst := h x List.mem_cons_self
      rw [List.filter_cons_of_pos (by simp [hself]), List.filter_cons_of_pos (by simp [htie])] at hfirst
      obtain rfl : x = y := (List.cons.inj hfirst).1
      have hrest : ∀ a ∈ xs, xs.filter (cmp a · = .eq) = ys.filter (cmp a · = .eq) := by
        intro a ha
        have hall := h a (List.mem_cons_of_mem _ ha)
        rw [List.filter_cons, List.filter_cons] at hall
        split at hall
        · exact (List.cons.inj hall).2
        · exact hall
      rw [ih hxs.of_cons hys.of_cons hperm.cons_inv hrest]

/-- There is one stable sort of a list. -/
lemma IsStableSort.eq (hxs : IsStableSort cmp before xs) (hys : IsStableSort cmp before ys) : xs = ys :=
  eq_of_filter_eq hxs.sorted hys.sorted (hxs.perm.trans hys.perm.symm) fun a ha =>
    have hbefore := hxs.perm.subset ha
    (hxs.stable a hbefore).trans (hys.stable a hbefore).symm

end

/-! ## Rows -/

/-- Sorting by insertion is stable. -/
lemma isStableSort_sortRows {cmp order : Row → Row → Ordering} [TransCmp cmp] {rows : List Row}
    (horder : ∀ a ∈ rows, ∀ b ∈ rows, order a b = cmp a b) :
    IsStableSort cmp rows (sortRows order rows) := by
  -- the places of the rows tell equal rows apart
  obtain ⟨places, hplaces⟩ : ∃ places, places = List.finRange rows.length := ⟨_, rfl⟩
  have hrows : places.map rows.get = rows := by rw [hplaces, List.map_get_finRange]
  have hlt : places.Pairwise (· < ·) := by
    rw [hplaces]
    exact List.pairwise_lt_finRange _
  have hplaced : ∀ i ∈ places, ∀ j ∈ places, order (rows.get i) (rows.get j) = cmp (rows.get i) (rows.get j) :=
    fun i _ j _ => horder _ (rows.get_mem i) _ (rows.get_mem j)
  have := transCmp_comap cmp rows.get
  obtain ⟨sorted, hsort, hperm, hsorted⟩ :=
    exists_sortRows order rows.get hplaced (hlt.imp compare_lt_iff_lt.2)
  rw [hrows] at hsort
  rw [hsort]
  refine ⟨?_, List.pairwise_map.2 (hsorted.imp isLE_of_compareLex_eq_lt), fun a _ => ?_⟩
  · conv_rhs => rw [← hrows]
    exact hperm.map _
  · have hties : (sorted.filter fun i => cmp a (rows.get i) = .eq).Pairwise (· < ·) := by
      refine (hsorted.filter _).imp_of_mem fun {i j} hi hj hij => ?_
      have hi := of_decide_eq_true (List.mem_filter.1 hi).2
      have hj := of_decide_eq_true (List.mem_filter.1 hj).2
      have htie : cmp (rows.get i) (rows.get j) = .eq := TransCmp.eq_trans (OrientedCmp.eq_symm hi) hj
      rw [compareLex, htie, Ordering.eq_then] at hij
      exact compare_lt_iff_lt.1 hij
    have hfilter := List.Perm.eq_of_pairwise (fun i j _ _ hij hji => absurd hij hji.asymm) hties (hlt.filter _)
      (hperm.filter _)
    conv_rhs => rw [← hrows]
    rw [List.filter_map, List.filter_map]
    exact congrArg (List.map rows.get) hfilter

/-- Values are in a linear order, in which only a value itself, bit for bit, is equal to it. So a sort of values
has one result, and a stable sort of rows by their cells is a sort by a total order and has one result. -/
theorem order_linear :
    (∀ a b : Scalar, (a.order b).isLE ∨ (b.order a).isLE) ∧
    (∀ a b : Scalar, b.order a = (a.order b).swap) ∧
    (∀ a b c : Scalar, (a.order b).isLE → (b.order c).isLE → (a.order c).isLE) ∧
    (∀ a b : Scalar, a.order b = .eq ↔ a = b) ∧
    (∀ xs ys : List Scalar, xs.Perm ys → (xs.Pairwise fun a b => (a.order b).isLE) →
      (ys.Pairwise fun a b => (a.order b).isLE) → xs = ys) ∧
    ∀ (position : ℕ) (rows : List Row), (∀ r ∈ rows, position < r.length) →
      IsTotalOn (orderAt position) (· ∈ rows) ∧
      ∀ after, IsStableSort (orderAt position) rows after ↔ after = sortRows (orderAt position) rows := by
  have hlinear : IsTotalOn Scalar.order fun _ => True := isTotalOn_of_transCmp _
  obtain ⟨htotal, hswap, htrans⟩ := hlinear
  refine ⟨fun a b => htotal a b trivial trivial, fun a b => hswap a b trivial trivial,
    fun a b c => htrans a b c trivial trivial trivial, fun _ _ => Scalar.order_eq_eq_iff,
    fun xs ys hperm hxs hys => ?_, fun position rows hrows => ?_⟩
  · exact hperm.eq_of_pairwise
      (fun a b _ _ hab hba => Scalar.order_eq_eq_iff.1 (OrientedCmp.isLE_antisymm hab hba)) hxs hys
  · obtain ⟨key, hkey⟩ : ∃ key : Row → Scalar, ∀ r ∈ rows, r[position]? = some (key r) :=
      ⟨fun r => r[position]?.getD (.bool false), fun r hr => by simp [hrows r hr]⟩
    have horder : ∀ a ∈ rows, ∀ b ∈ rows, orderAt position a b = (key a).order (key b) :=
      fun a ha b hb => by rw [orderAt, hkey a ha, hkey b hb]
    have := transCmp_comap Scalar.order key
    have hsort := isStableSort_sortRows horder
    refine ⟨(isTotalOn_of_transCmp _).congr fun a b ha hb => horder a ha b hb, fun after => ⟨fun h => ?_, ?_⟩⟩
    · exact (h.congr fun a ha b hb => (horder a ha b hb).symm).eq hsort
    · rintro rfl
      exact hsort.congr horder

/-- Rows with both zeros, and twice with what is no number. -/
def oddRows : List Row :=
  [[.float .nan, .int 1], [.float .zero, .int 2], [.float .nan, .int 3], [.float (.ofMagnitude true 0), .int 4]]

/-- The zeros, equal as numbers, are two values in the order, and what is no number, not equal to itself, is one
that comes after them. -/
theorem order_linear_zeros :
    Scalar.equals (.float (.ofMagnitude true 0)) (.float .zero) = true ∧
    (Scalar.float (.ofMagnitude true 0)).order (.float .zero) = .lt ∧
    Scalar.equals (.float .nan) (.float .nan) = false ∧ (Scalar.float .nan).order (.float .nan) = .eq ∧
    ((Scalar.float .zero).order (.floats [.nan])).isLE ∧
    ((Scalar.floats [.nan]).order (.floats [.nan, .zero])).isLE ∧
    ((Scalar.float .zero).order (.floats [.nan, .zero])).isLE ∧
    (∀ r ∈ oddRows, 0 < r.length) ∧ IsTotalOn (orderAt 0) (· ∈ oddRows) ∧
    IsStableSort (orderAt 0) oddRows [[.float (.ofMagnitude true 0), .int 4], [.float .zero, .int 2],
      [.float .nan, .int 1], [.float .nan, .int 3]] := by
  obtain ⟨-, -, htrans, heq, -, hrows⟩ := order_linear
  have htypes : ((Scalar.float .zero).order (.floats [.nan])).isLE := by decide
  have hbeginning : ((Scalar.floats [.nan]).order (.floats [.nan, .zero])).isLE := by decide
  have hcells : ∀ r ∈ oddRows, 0 < r.length := by decide
  obtain ⟨htotal, hsort⟩ := hrows 0 oddRows hcells
  exact ⟨by decide, by decide, by decide, (heq _ _).2 rfl, htypes, hbeginning, htrans _ _ _ htypes hbeginning,
    hcells, htotal, (hsort _).2 (by decide)⟩

end ProvenTables.Query
