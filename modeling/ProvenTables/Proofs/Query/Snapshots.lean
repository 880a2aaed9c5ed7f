import ProvenTables.Proofs.Digest
import ProvenTables.Proofs.Index
import ProvenTables.Proofs.Query.Arrangement

/-!
# Indexes as snapshots

An index that is built over rows has them bucket by bucket. Since the buckets are in the order of their keys
and every bucket is in the order of the rows, an index over a column has all rows in the order of the texts in
that column, as with a stable sort (`exists_snapshot`). A query for one column that has an index of its name
is answered from the index alone.
-/

namespace ProvenTables

open Query (groupKey)

namespace Index

variable {rows : List Row} {position : ℕ}

/-- Building an index over one more row adds the row under its key. -/
lemma build_append_singleton (rows : List Row) {r : Row} (h : position < r.length) :
    build (rows ++ [r]) position = (build rows position).add (groupKey position r) r := by
  rw [build, List.foldl_append, List.foldl_cons, List.foldl_nil, List.getElem?_eq_getElem h, groupKey,
    List.getElem?_eq_getElem h]
  rfl

/-- The rows of one key are together, in their order. -/
lemma get?_build (h : ∀ r ∈ rows, position < r.length) (k : String) :
    (build rows position).buckets.get? k = if k ∈ rows.map (groupKey position) then
      some (rows.filter (groupKey position · = k)) else none := by
  induction rows using List.reverseRecOn with
  | nil => rfl
  | append_singleton rows r ih =>
    obtain ⟨hrows, hr⟩ := List.forall_mem_append.1 h
    have hbucket : ((build rows position).buckets.get? k).getD [] = rows.filter (groupKey position · = k) := by
      rw [ih hrows]
      split
      · rfl
      · rename_i hnone
        refine (List.filter_eq_nil_iff.2 fun q hq hkey => hnone ?_).symm
        exact List.mem_map.2 ⟨q, hq, of_decide_eq_true hkey⟩
    rw [build_append_singleton rows (hr r List.mem_cons_self), add, SortedMap.get?_insert]
    by_cases hkey : groupKey position r = k
    · subst hkey
      rw [if_pos rfl, hbucket]
      simp
    · rw [if_neg hkey, ih hrows]
      simp [hkey, Ne.symm hkey]

/-- An index over rows has them bucket by bucket. -/
lemma rows_build (h : ∀ r ∈ rows, position < r.length) :
    (build rows position).rows =
      (build rows position).buckets.keys.flatMap fun k => rows.filter (groupKey position · = k) := by
  rw [Index.rows, SortedMap.values, SortedMap.keys, ← List.flatMap_def, List.flatMap_map]
  refine List.flatMap_congr fun e he => ?_
  have hget := SortedMap.mem_entries_iff.1 he
  rw [get?_build h] at hget
  split at hget
  · exact (Option.some.inj hget).symm
  · cases hget

/-- The keys of an index are the keys of its rows, each of them once. -/
lemma keys_build_perm (h : ∀ r ∈ rows, position < r.length) :
    (build rows position).buckets.keys.Perm (rows.map (groupKey position)).eraseDups := by
  have hkeys : (build rows position).buckets.keys.Nodup := (SortedMap.pairwise_keys _).imp String.ne_of_lt
  refine (List.perm_ext_iff_of_nodup hkeys (Query.nodup_eraseDups _)).2 fun k => ?_
  rw [List.mem_eraseDups, SortedMap.keys, List.mem_map]
  constructor
  · rintro ⟨e, he, rfl⟩
    have hget := SortedMap.mem_entries_iff.1 he
    rw [get?_build h] at hget
    by_contra hk
    rw [if_neg hk] at hget
    cases hget
  · intro hk
    have hget := get?_build h k
    rw [if_pos hk] at hget
    exact ⟨_, SortedMap.mem_entries_iff.2 hget, rfl⟩

end Index

namespace Query

open Sql

/-! ## Places by their keys -/

section Keys

variable {key : ℕ → String} {keys : List String} {places : List ℕ}

/-- The places of each of their keys are all the places. -/
lemma flatMap_filter_perm (hplaces : places.Pairwise (· < ·)) (hkeys : keys.Perm (places.map key).eraseDups) :
    (keys.flatMap fun k => places.filter (key · = k)).Perm places := by
  have hgroups := (isGrouping_groupsOf key hplaces).perm
  rw [groupsOf, ← List.flatMap_def] at hgroups
  exact (hkeys.flatMap_right _).trans hgroups

/-- The places of increasing keys are in the order of their keys, and those of one key increase. -/
lemma pairwise_flatMap_filter (hplaces : places.Pairwise (· < ·)) (hkeys : keys.Pairwise (· < ·)) :
    (keys.flatMap fun k => places.filter (key · = k)).Pairwise fun m n =>
      key m < key n ∨ key m = key n ∧ m < n := by
  have hkey : ∀ {k n}, n ∈ places.filter (key · = k) → key n = k :=
    fun hn => of_decide_eq_true (List.mem_filter.1 hn).2
  refine List.pairwise_flatMap.2 ⟨fun k _ => ?_, hkeys.imp fun {k l} hlt m hm n hn => .inl ?_⟩
  · exact (hplaces.filter _).imp_of_mem fun hm hn hlt => .inr ⟨(hkey hm).trans (hkey hn).symm, hlt⟩
  · rwa [hkey hm, hkey hn]

end Keys

/-! ## Snapshots -/

variable {t : Table} {column : String} {i : ℕ}

/-- The text of the cell in one row is before that in another, by its bytes, or the same in an earlier row. -/
def PrecedesByText (t : Table) (column : String) (m n : ℕ) : Prop :=
  ∃ x y, cell? t column m = some x ∧ cell? t column n = some y ∧
    (Digest.utf8 x.render < Digest.utf8 y.render ∨ x.render = y.render ∧ m < n)

/-- All rows of a table, each once, in the order of the texts of their cells. -/
structure IsSnapshot (t : Table) (column : String) (places : List ℕ) : Prop where
  perm : places.Perm (List.range t.rows.length)
  sorted : places.Pairwise (PrecedesByText t column)

/-- An index over a column has the rows as a snapshot of them. -/
theorem exists_snapshot (hrows : ∀ r ∈ t.rows, Table.Fits t.columns r) (hi : t.position? column = some i) :
    ∃ places, IsSnapshot t column places ∧ (Index.build t.rows i).rows = places.map (rowAt t) := by
  have hlength : ∀ r ∈ t.rows, i < r.length := by
    intro r hr
    obtain ⟨c, hc, -⟩ := Table.exists_of_position? hi
    have hcells := congrArg List.length (hrows r hr)
    rw [List.length_map, List.length_map] at hcells
    exact hcells ▸ (List.getElem?_eq_some_iff.1 hc).1
  have hrange : (List.range t.rows.length).Pairwise (· < ·) := List.pairwise_lt_range
  have hkeys := Index.keys_build_perm hlength
  have hmap : t.rows.map (groupKey i) = (List.range t.rows.length).map fun n => groupKey i (rowAt t n) := by
    conv_lhs => rw [← map_rowAt t]
    exact List.map_map
  rw [hmap] at hkeys
  have hperm := flatMap_filter_perm hrange hkeys
  refine ⟨_, ⟨hperm, ?_⟩, ?_⟩
  · have hcell : ∀ {n}, n ∈ List.range t.rows.length → ∃ x, cell? t column n = some x ∧
        groupKey i (rowAt t n) = x.render := by
      intro n hn
      obtain ⟨x, hx, hrow, -⟩ := exists_cell? hrows hi (List.mem_range.1 hn)
      exact ⟨x, hx, by simp only [groupKey, hrow]; rfl⟩
    -- the buckets stand in the order of their keys, which are the rendered cells
    refine (pairwise_flatMap_filter hrange (SortedMap.pairwise_keys _)).imp_of_mem fun {m n} hm hn h => ?_
    obtain ⟨x, hx, hkeyx⟩ := hcell (hperm.subset hm)
    obtain ⟨y, hy, hkeyy⟩ := hcell (hperm.subset hn)
    rw [hkeyx, hkeyy] at h
    exact ⟨x, y, hx, hy, h.imp_left Digest.utf8_lt_utf8⟩
  · rw [Index.rows_build hlength, List.map_flatMap]
    refine List.flatMap_congr fun k _ => ?_
    conv_lhs => rw [← map_rowAt t]
    exact List.filter_map

/-! ## Answers from snapshots -/

section Answers

variable {u : Table} {s : Select} {a : Answer} {name : String} {p : Plan}

/-- An answer of one column is that of a plan which puts out that column. -/
lemma exists_output_of_select (hu : u.IsSound) (h : select u s = .ok a) (hname : a.columns = [name]) :
    ∃ p i, planOf u s = .ok p ∧ p.run u = .ok a ∧ p.output = [i] ∧ u.position? name = some i := by
  obtain ⟨p, hp, hrun⟩ := bind_eq_ok_iff.1 h
  have hdistinct := firstRepeated?_eq_none_iff.1 hu.distinct
  cases hindex : p.index? u with
  | none =>
    have hpositions := positions_of_outputNames hdistinct (output_lt hp)
    rw [← Plan.columns_of_run hindex hrun, hname, List.mapM_cons, List.mapM_nil] at hpositions
    obtain ⟨i, hi, houtput⟩ := Option.bind_eq_some_iff.1 hpositions
    exact ⟨p, i, hp, hrun, (Option.some.inj houtput).symm, hi⟩
  | some x =>
    obtain ⟨n, ix⟩ := x
    obtain ⟨i, c, houtput, hc, -, rfl⟩ := Plan.index?_eq_some_iff.1 hindex
    have hanswer := hrun
    simp only [Plan.run, hindex] at hanswer
    obtain ⟨rs, -, ha⟩ := bind_eq_ok_iff.1 hanswer
    cases ha
    cases hname
    exact ⟨p, i, hp, hrun, houtput, Table.position?_of_distinct hdistinct hc⟩

/-- The index of the only output column, if there is one. -/
lemma index?_of_output (houtput : p.output = [i]) (hi : u.position? name = some i) :
    p.index? u = (u.indexes.get? name).map fun ix => (name, ix) := by
  obtain ⟨c, hc, rfl⟩ := Table.exists_of_position? hi
  rw [Plan.index?, houtput]
  simp only [hc, Option.bind_eq_bind, Option.bind_some]
  cases u.indexes.get? c.name <;> rfl

/-- Every row of a snapshot has a cell in a column. -/
lemma IsSnapshot.exists_cells {places : List ℕ} (h : IsSnapshot t column places)
    (hrows : ∀ r ∈ t.rows, Table.Fits t.columns r) (hi : t.position? name = some i) :
    ∃ cells : List Scalar, places.map (cell? t name) = cells.map some := by
  refine ⟨places.map fun n => (cell? t name n).getD (.bool false), ?_⟩
  rw [List.map_map]
  refine List.map_congr_left fun n hn => ?_
  obtain ⟨x, hx, -⟩ := exists_cell? hrows hi (List.mem_range.1 (h.perm.subset hn))
  simp [hx]

/-- An answer of one column with an index is the column of a snapshot, whatever else the query asks for. -/
lemma answer_of_snapshot {j : ℕ} (hu : u.IsSound) (h : select u s = .ok a) (hname : a.columns = [name])
    (hrows : ∀ r ∈ t.rows, Table.Fits t.columns r) (hcolumns : t.columns = u.columns)
    (hj : t.position? column = some j) (hix : u.indexes.get? name = some (Index.build t.rows j)) :
    ∃ places, ∃ cells : List Scalar, IsSnapshot t column places ∧ places.map (cell? t name) = cells.map some ∧
      a = ⟨[name], .rows (cells.map ([·]))⟩ := by
  obtain ⟨p, i, -, hrun, houtput, hi⟩ := exists_output_of_select hu h hname
  have hi' : t.position? name = some i := by rwa [Table.position?, hcolumns]
  obtain ⟨places, hsnapshot, hplaces⟩ := exists_snapshot hrows hj
  obtain ⟨cells, hcells⟩ := hsnapshot.exists_cells hrows hi'
  have hindex : p.index? u = some (name, Index.build t.rows j) := by
    rw [index?_of_output houtput hi, hix]
    rfl
  have hvalues : (places.map (rowAt t)).map (·[i]?) = cells.map some := by
    rw [← hcells, List.map_map]
    exact List.map_congr_left fun n hn =>
      (cell?_eq hi' (List.mem_range.1 (hsnapshot.perm.subset hn))).symm
  simp only [Plan.run, hindex] at hrun
  obtain ⟨rs, hrs, ha⟩ := bind_eq_ok_iff.1 hrun
  cases ha
  refine ⟨places, cells, hsnapshot, hcells, ?_⟩
  rw [Plan.filterMap_of_project hrs, houtput, filterMap_project?_singleton, hplaces, hvalues, List.filterMap_map]
  simp

/-- An answer of one column without an index is not taken from one, and would be the same without any. -/
lemma select_of_unindexed (hu : u.IsSound) (h : select u s = .ok a) (hname : a.columns = [name])
    (hnone : u.indexes.get? name = none) :
    ¬IsIndexed u s ∧ select { u with indexes := .empty } s = .ok a := by
  obtain ⟨p, i, hp, hrun, houtput, hi⟩ := exists_output_of_select hu h hname
  have hindex : p.index? u = none := by
    rw [index?_of_output houtput hi, hnone]
    rfl
  constructor
  · rintro ⟨q, ix, hq, hix⟩
    cases hp.symm.trans hq
    cases hindex.symm.trans hix
  · have hempty : p.index? { u with indexes := .empty } = none := index?_of_output houtput hi
    have hplan : planOf { u with indexes := .empty } s = .ok p := hp
    rw [select, hplan]
    simp only [Plan.run, hindex] at hrun
    simp only [bind, Except.bind, Plan.run, hempty]
    exact hrun

end Answers

end Query

end ProvenTables
