import ProvenTables.Proofs.Storage.Decode
import ProvenTables.Proofs.Subperm

/-!
# What indexes hold

An index that is built over rows holds every row at most as often as it is there. A table is faithful
if every index that is named after a column has, in that column, no value more often than the rows.
-/

namespace ProvenTables

namespace SortedMap

/-- A key below all keys is not found. -/
lemma lookup?_eq_none {α : Type} {es : List (String × α)} {k : String} (h : ∀ e ∈ es, k < e.1) :
    lookup? k es = none := by
  induction es with
  | nil => rfl
  | cons e es ih =>
    have hne : e.1 ≠ k := fun he => absurd (h e List.mem_cons_self) (he ▸ String.lt_irrefl _)
    rw [lookup?, if_neg hne]
    exact ih fun d hd => h d (List.mem_cons_of_mem _ hd)

/-- One more item under a key is one more item in all. -/
lemma flatten_insertEntry_perm {α : Type} {k : String} {a : α} {es : List (String × List α)}
    (h : es.Pairwise (fun a b => a.1 < b.1)) :
    ((insertEntry k ((lookup? k es).getD [] ++ [a]) es).map (·.2)).flatten.Perm
      (a :: (es.map (·.2)).flatten) := by
  induction es with
  | nil => exact List.Perm.refl _
  | cons e es ih =>
    obtain ⟨hlt, hrest⟩ := List.pairwise_cons.1 h
    rw [insertEntry]
    split
    · -- the key is new and comes first
      rename_i hk
      have hnone : lookup? k (e :: es) = none := by
        refine lookup?_eq_none fun d hd => ?_
        rcases List.mem_cons.1 hd with rfl | hd
        · exact hk
        · exact String.lt_trans hk (hlt d hd)
      rw [hnone]
      exact List.Perm.refl _
    · split
      · rename_i hk
        rw [lookup?, if_pos hk.symm]
        simp only [Option.getD_some, List.map_cons, List.flatten_cons, List.append_assoc]
        exact List.perm_middle
      · rename_i hk
        have hne : e.1 ≠ k := fun he => hk he.symm
        rw [lookup?, if_neg hne]
        exact ((ih hrest).append_left e.2).trans List.perm_middle

end SortedMap

namespace Index

/-- Adding a row to an index adds it to its rows and keeps every other one. -/
lemma rows_add_perm (ix : Index) (key : String) (r : Row) :
    (ix.add key r).rows.Perm (r :: ix.rows) :=
  SortedMap.flatten_insertEntry_perm ix.buckets.sorted

/-- The rows of an index that is built from rows are among them. -/
lemma rows_foldl_subperm (position : ℕ) (rows : List Row) (ix : Index) :
    (rows.foldl (fun ix r => match r[position]? with
      | some key => ix.add key.render r
      | none => ix) ix).rows.Subperm (ix.rows ++ rows) := by
  induction rows generalizing ix with
  | nil => exact (List.append_nil _).symm ▸ List.Subperm.refl _
  | cons r rows ih =>
    refine (ih _).trans ?_
    cases hkey : r[position]? with
    | none =>
      simp only [hkey]
      exact ((List.sublist_cons_self r rows).append_left ix.rows).subperm
    | some key =>
      simp only [hkey]
      have hadd := (ix.rows_add_perm key.render r).append_right rows
      exact (hadd.trans List.perm_middle.symm).subperm

/-- An index over rows holds none of them more often than it is there. -/
lemma rows_build_subperm (rows : List Row) (position : ℕ) :
    (build rows position).rows.Subperm rows :=
  rows_foldl_subperm position rows ⟨.empty⟩

end Index

namespace Table

/-- An index named after a column has in that column no value more often than the rows have it. -/
def IsFaithful (t : Table) : Prop :=
  ∀ (i : ℕ) (c : Column) (ix : Index), t.columns[i]? = some c →
    t.indexes.get? c.name = some ix → (ix.rows.map (·[i]?)).Subperm (t.rows.map (·[i]?))

/-- The indexes of a table without indexes are faithful. -/
lemma isFaithful_of_isEmpty {t : Table} (h : t.indexes = .empty) : t.IsFaithful := by
  intro i c ix _ hix
  rw [h] at hix
  cases hix

/-- Faithful indexes stay faithful when rows are added to their table. -/
lemma IsFaithful.addRows {t : Table} (h : t.IsFaithful) (rows : List Row) :
    IsFaithful { t with rows := t.rows ++ rows } := by
  intro i c ix hc hix
  rw [List.map_append]
  exact (h i c ix hc hix).trans (List.sublist_append_left _ _).subperm

/-- An index over rows of the table leaves the indexes faithful. -/
lemma IsFaithful.addIndex {t : Table} (h : t.IsFaithful) {ix : Index} (hix : ix.rows.Subperm t.rows)
    (name : String) : IsFaithful { t with indexes := t.indexes.insert name ix } := by
  intro i c jx hc hjx
  rw [SortedMap.get?_insert] at hjx
  split at hjx
  · cases hjx
    exact subperm_map _ hix
  · exact h i c jx hc hjx

end Table

end ProvenTables
