import ProvenTables.Proofs.Index
import ProvenTables.Query.Plan

/-!
# Rows of answers

Filtering, grouping, sorting and cutting give no row more often than it was there. An answer is drawn
from a table if its rows are projected rows of the table, none of them more often than there; all
answers from a table are drawn from it exactly if the table is faithful.
-/

namespace ProvenTables.Query

open Sql

/-! ## Order and groups -/

/-- Inserting a row adds it and nothing else. -/
lemma insertRow_perm (order : Row → Row → Ordering) (r : Row) (rows : List Row) :
    (insertRow order r rows).Perm (r :: rows) := by
  induction rows with
  | nil => exact List.Perm.refl _
  | cons x xs ih =>
    rw [insertRow]
    split
    · exact (ih.cons x).trans (List.Perm.swap r x xs)
    · exact List.Perm.refl _

/-- Sorted rows are the same rows. -/
lemma sortRows_perm (order : Row → Row → Ordering) (rows : List Row) :
    (sortRows order rows).Perm rows := by
  have hfold : ∀ rows sorted : List Row,
      (rows.foldl (fun sorted r => insertRow order r sorted) sorted).Perm (sorted ++ rows) := by
    intro rows
    induction rows with
    | nil => exact fun sorted => (List.append_nil sorted).symm ▸ List.Perm.refl _
    | cons r rows ih =>
      intro sorted
      have hinsert := (insertRow_perm order r sorted).append_right rows
      exact (ih _).trans (hinsert.trans List.perm_middle.symm)
  exact (List.reverse_perm _).trans (hfold rows [])

/-- Adding a row to its group adds it and nothing else. -/
lemma flatten_addToGroup_perm (key : String) (r : Row) (gs : List (String × List Row)) :
    ((addToGroup key r gs).map (·.2)).flatten.Perm (r :: (gs.map (·.2)).flatten) := by
  induction gs with
  | nil => exact List.Perm.refl _
  | cons g gs ih =>
    rw [addToGroup]
    split
    · simp only [List.map_cons, List.flatten_cons, List.append_assoc]
      exact List.perm_middle
    · exact (ih.append_left g.2).trans List.perm_middle

/-- The rows of the groups are the same rows. -/
lemma flatten_groupRows_perm (position : ℕ) (rows : List Row) :
    (groupRows position rows).flatten.Perm rows := by
  have hfold : ∀ (rows : List Row) (gs : List (String × List Row)),
      ((rows.foldl (fun gs r => addToGroup (groupKey position r) r gs) gs).map (·.2)).flatten.Perm
        ((gs.map (·.2)).flatten ++ rows) := by
    intro rows
    induction rows with
    | nil => exact fun gs => (List.append_nil _).symm ▸ List.Perm.refl _
    | cons r rows ih =>
      intro gs
      have hadd := (flatten_addToGroup_perm (groupKey position r) r gs).append_right rows
      exact (ih _).trans (hadd.trans List.perm_middle.symm)
  exact hfold rows []

namespace Plan

variable {p : Plan}

/-- Arranged rows are the same rows. -/
lemma arrange_perm (p : Plan) (rows : List Row) : (p.arrange rows).Perm rows := by
  rw [arrange]
  cases p.orderBy with
  | none =>
    cases p.ranking with
    | none => exact List.Perm.refl _
    | some ranking => exact sortRows_perm _ rows
  | some i =>
    cases p.ranking with
    | none => exact sortRows_perm _ rows
    | some ranking => exact (sortRows_perm _ _).trans (sortRows_perm _ rows)

/-- What a limit leaves is in order. -/
lemma cut_sublist {α : Type} (p : Plan) (xs : List α) : (p.cut xs).Sublist xs := by
  rw [cut]
  cases p.limit with
  | none => exact List.Sublist.refl _
  | some n => exact List.take_sublist n xs

/-- Groups that are arranged and cut hold no row more often than the rows. -/
lemma flatten_groups_subperm (p : Plan) (position : ℕ) (rows : List Row) :
    (p.cut ((groupRows position rows).map p.arrange)).flatten.Subperm rows := by
  have harrange : ((groupRows position rows).map p.arrange).flatten.Perm rows := by
    refine List.Perm.trans ?_ (flatten_groupRows_perm position rows)
    rw [← List.flatMap_def, ← List.flatMap_id]
    exact (List.Perm.refl _).flatMap fun g _ => p.arrange_perm g
  exact (p.cut_sublist _).flatten.subperm.trans harrange.subperm

/-! ## Projection -/

/-- A plan is answered from an index if its output is one column that names an index. -/
lemma index?_eq_some_iff {t : Table} {name : String} {ix : Index} :
    p.index? t = some (name, ix) ↔ ∃ i c, p.output = [i] ∧ t.columns[i]? = some c ∧
      t.indexes.get? c.name = some ix ∧ name = c.name := by
  rw [index?]
  rcases p.output with - | ⟨i, - | ⟨j, is⟩⟩
  · simp
  · cases hc : t.columns[i]? with
    | none => simp [hc]
    | some c =>
      cases hix : t.indexes.get? c.name with
      | none => simp [hc, hix]
      | some jx => simp [hc, hix, and_comm, eq_comm]
  · simp

/-- Rows are projected if and only if every one of them is. -/
lemma project_eq_ok_iff {rows rs : List Row} :
    p.project rows = .ok rs ↔ (rows.mapM fun r => r.project? p.output) = some rs := by
  rw [project]
  cases rows.mapM fun r => r.project? p.output <;> simp

/-- Projected rows are the projections of the rows. -/
lemma filterMap_of_project {rows rs : List Row} (h : p.project rows = .ok rs) :
    rs = rows.filterMap (·.project? p.output) :=
  (filterMap_of_mapM_some (project_eq_ok_iff.1 h)).symm

/-- The rows of projected groups are the projections of the rows. -/
lemma flatten_of_project {groups gs : List (List Row)} (h : groups.mapM p.project = .ok gs) :
    gs.flatten = groups.flatten.filterMap (·.project? p.output) := by
  have hgroups := mapM_eq_ok_iff.1 h
  clear h
  induction hgroups with
  | nil => rfl
  | cons hg _ ih =>
    rw [List.flatten_cons, List.flatten_cons, List.filterMap_append, ih, filterMap_of_project hg]

end Plan

/-! ## Positions -/

/-- What the rows have in one column is what is projected. -/
lemma filterMap_project?_singleton (rows : List Row) (i : ℕ) :
    rows.filterMap (·.project? [i]) = (rows.map (·[i]?)).filterMap (Option.map ([·])) := by
  rw [List.filterMap_map]
  refine List.filterMap_congr fun r _ => ?_
  cases hr : r[i]? <;> simp [Row.project?, hr]

/-- A column is located if and only if the table has it. -/
lemma locate_eq_ok_iff {t : Table} {name : String} {i : ℕ} :
    locate t name = .ok i ↔ t.position? name = some i := by
  rw [locate]
  cases t.position? name <;> simp

end ProvenTables.Query

namespace ProvenTables.Table

variable {t : Table}

/-- The position of a name is the one of a column with that name. -/
lemma exists_of_position? {name : String} {i : ℕ} (h : t.position? name = some i) :
    ∃ c, t.columns[i]? = some c ∧ c.name = name := by
  obtain ⟨hi, hname, -⟩ := List.findIdx?_eq_some_iff_getElem.1 h
  exact ⟨t.columns[i], List.getElem?_eq_getElem hi, by simpa using hname⟩

/-- A column is the first of its name if no name occurs twice. -/
lemma position?_of_distinct (h : t.columnNames.Nodup) {i : ℕ} {c : Column}
    (hc : t.columns[i]? = some c) : t.position? c.name = some i := by
  obtain ⟨hi, rfl⟩ := List.getElem?_eq_some_iff.1 hc
  refine List.findIdx?_eq_some_iff_getElem.2 ⟨hi, by simp, fun j hji hj => ?_⟩
  have hlength : t.columnNames.length = t.columns.length := by simp [columnNames]
  have hjlen : j < t.columnNames.length := by omega
  have hilen : i < t.columnNames.length := by omega
  have hnames : t.columnNames[j] = t.columnNames[i] := by simpa [columnNames] using hj
  exact absurd ((h.getElem_inj_iff).1 hnames) (by omega)

/-- Rows have all the values that a projection onto columns of the table takes. -/
lemma exists_project? {r : Row} (hr : Fits t.columns r) {positions : List ℕ}
    (h : ∀ i ∈ positions, i < t.columns.length) : ∃ q, r.project? positions = some q := by
  have hlength : r.length = t.columns.length := by
    simpa using congrArg List.length hr
  refine exists_mapM_some fun i hi => ?_
  have hlt : i < r.length := hlength ▸ h i hi
  exact ⟨r[i], List.getElem?_eq_getElem hlt⟩

end ProvenTables.Table

namespace ProvenTables.Query

open Sql

/-- The positions that a projection asks for. -/
def positionsOf (t : Table) : Projection → Except QueryError (List ℕ)
  | .all => .ok (List.range t.columns.length)
  | .columns names => names.mapM (locate t)

/-- The position of the column that is ranked, with the vector it is compared with. -/
def placeOf (t : Table) (r : Option Ranking) : Except QueryError (Option (ℕ × List Binary64)) :=
  match r with
  | some r => do return some (← locate t r.column, r.vector)
  | none => .ok none

/-- The condition of a filter, if there is one. -/
def filterOf (t : Table) (f : Option Filter) : Except QueryError (Option Condition) :=
  match f with
  | some f => some <$> conditionOf t f
  | none => .ok none

/-- Output columns with the one that is ranked. -/
def withRanked (output : List ℕ) : Option (ℕ × List Binary64) → List ℕ
  | some (i, _) => if i ∈ output then output else output ++ [i]
  | none => output

/-- A plan is made clause by clause. -/
lemma planOf_eq (t : Table) (s : Select) : planOf t s = do
    let output ← positionsOf t s.projection
    let ranking ← placeOf t s.ranking
    let condition ← filterOf t s.filter
    let groupBy ← locateOptional t s.groupBy
    let orderBy ← locateOptional t s.orderBy
    return ⟨withRanked output ranking, ranking, condition, groupBy, orderBy, s.limit⟩ := by
  rw [planOf]
  cases s.projection <;> cases s.ranking <;> cases s.filter <;>
    simp only [positionsOf, placeOf, filterOf, withRanked, bind_assoc] <;> rfl

/-- A located column is below the number of columns. -/
lemma lt_of_locate {t : Table} {name : String} {i : ℕ} (h : locate t name = .ok i) :
    i < t.columns.length := by
  obtain ⟨c, hc, -⟩ := Table.exists_of_position? (locate_eq_ok_iff.1 h)
  exact (List.getElem?_eq_some_iff.1 hc).1

/-- The plan of a query puts out columns of the table. -/
lemma output_lt {t : Table} {s : Select} {p : Plan} (h : planOf t s = .ok p) :
    ∀ i ∈ p.output, i < t.columns.length := by
  simp only [planOf_eq, bind_eq_ok_iff] at h
  obtain ⟨output, houtput, ranking, hranking, c, -, g, -, o, -, hp⟩ := h
  cases hp
  have hprojection : ∀ i ∈ output, i < t.columns.length := by
    -- the projected names are located one by one, and `*` stands for every position
    intro i hi
    cases hs : s.projection with
    | all =>
      rw [hs] at houtput
      cases houtput
      exact List.mem_range.1 hi
    | columns names =>
      rw [hs] at houtput
      obtain ⟨name, -, hname⟩ := (exists_of_mapM_ok houtput).2 i hi
      exact lt_of_locate hname
  cases hs : s.ranking with
  | none =>
    rw [hs] at hranking
    cases hranking
    exact hprojection
  | some r =>
    rw [hs] at hranking
    obtain ⟨i, hi, hr⟩ := bind_eq_ok_iff.1 hranking
    cases hr
    intro j hj
    -- a ranked column that is not projected is put after the others
    simp only [withRanked] at hj
    split at hj
    · exact hprojection j hj
    · rcases List.mem_append.1 hj with hj | hj
      · exact hprojection j hj
      · exact List.mem_singleton.1 hj ▸ lt_of_locate hi

/-- The names of output columns lead back to their positions. -/
lemma positions_of_outputNames {t : Table} (ht : t.columnNames.Nodup) {p : Plan}
    (h : ∀ i ∈ p.output, i < t.columns.length) :
    (p.outputNames t).mapM t.position? = some p.output := by
  rw [Plan.outputNames]
  generalize p.output = positions at h
  induction positions with
  | nil => rfl
  | cons i is ih =>
    obtain ⟨hi, his⟩ := List.forall_mem_cons.1 h
    have hget : t.columns[i]? = some t.columns[i] := List.getElem?_eq_getElem hi
    rw [List.filterMap_cons, hget]
    simp only [Option.map_some, List.mapM_cons, Table.position?_of_distinct ht hget, ih his]
    rfl

/-! ## Answers -/

/-- The rows of an answer are rows of a table, projected onto the columns of the answer, and none
occurs more often than there. -/
def Answer.IsDrawnFrom (t : Table) (a : Answer) : Prop :=
  ∃ positions rows, a.columns.mapM t.position? = some positions ∧
    (t.rows.mapM fun r => r.project? positions) = some rows ∧ a.result.allRows.Subperm rows

/-- The rows of an index of a table are among all its rows. -/
lemma mem_allRows_of_index {t : Table} {name : String} {ix : Index} {r : Row}
    (hix : t.indexes.get? name = some ix) (hr : r ∈ ix.rows) : r ∈ t.allRows :=
  List.mem_append_right _
    (Payload.mem_flatMap_rows_iff.2 ⟨(name, ix), SortedMap.mem_entries_iff.2 hix, hr⟩)

/-- All answers from a faithful table are drawn from it. -/
theorem isDrawnFrom_of_select {t : Table} {s : Select} {a : Answer} (ht : t.IsSound)
    (hfaithful : t.IsFaithful) (h : select t s = .ok a) : a.IsDrawnFrom t := by
  obtain ⟨p, hplan, hrun⟩ := bind_eq_ok_iff.1 h
  have hlt := output_lt hplan
  have hdistinct := firstRepeated?_eq_none_iff.1 ht.distinct
  have hnames := positions_of_outputNames hdistinct hlt
  -- rows that fit have a cell at every output position, so no projection below fails
  obtain ⟨rows, hrows⟩ : ∃ rows, (t.rows.mapM fun r => r.project? p.output) = some rows :=
    exists_mapM_some fun r hr =>
      Table.exists_project? (ht.row hr).fits hlt
  have hfilter : rows = t.rows.filterMap (·.project? p.output) :=
    (filterMap_of_mapM_some hrows).symm
  simp only [Plan.run] at hrun
  split at hrun
  · -- the rows of the index
    rename_i name ix hindex
    obtain ⟨rs, hrs, ha⟩ := bind_eq_ok_iff.1 hrun
    cases ha
    obtain ⟨i, c, houtput, hc, hix, rfl⟩ := Plan.index?_eq_some_iff.1 hindex
    have hcolumns : p.outputNames t = [c.name] := by simp [Plan.outputNames, houtput, hc]
    refine ⟨p.output, rows, hcolumns ▸ hnames, hrows, ?_⟩
    rw [Result.allRows, Plan.filterMap_of_project hrs, hfilter, houtput,
      filterMap_project?_singleton, filterMap_project?_singleton]
    exact subperm_filterMap _ (hfaithful i c ix hc hix)
  -- without an index the answer is read from the rows that the filter keeps
  · have hkept : (t.rows.filter p.keeps).Subperm t.rows := List.filter_sublist.subperm
    cases hgroup : p.groupBy with
    | none =>
      rw [hgroup] at hrun
      obtain ⟨result, hresult, ha⟩ := bind_eq_ok_iff.1 hrun
      cases ha
      obtain ⟨rs, hrs, rfl⟩ := map_eq_ok_iff.1 hresult
      -- sorting permutes the rows that are kept, and the limit cuts a prefix of them
      have harrange := (p.cut_sublist _).subperm.trans (p.arrange_perm (t.rows.filter p.keeps)).subperm
      refine ⟨p.output, rows, hnames, hrows, ?_⟩
      rw [Result.allRows, Plan.filterMap_of_project hrs, hfilter]
      exact subperm_filterMap _ (harrange.trans hkept)
    | some i =>
      rw [hgroup] at hrun
      obtain ⟨result, hresult, ha⟩ := bind_eq_ok_iff.1 hrun
      cases ha
      obtain ⟨gs, hgs, rfl⟩ := map_eq_ok_iff.1 hresult
      refine ⟨p.output, rows, hnames, hrows, ?_⟩
      rw [Result.allRows, Plan.flatten_of_project hgs, hfilter]
      -- each row kept is in one group, and the limit drops whole groups
      exact subperm_filterMap _ ((p.flatten_groups_subperm i _).trans hkept)

/-- The query for all rows of one column. -/
def columnQuery (t : Table) (name : String) : Select :=
  ⟨t.name, .columns [name], none, none, none, none, none⟩

/-- What the index of a column holds is the answer to the query for the column. -/
lemma select_columnQuery {t : Table} {i : ℕ} {c : Column} {ix : Index} (ht : t.IsSound)
    (hc : t.columns[i]? = some c) (hix : t.indexes.get? c.name = some ix) :
    select t (columnQuery t c.name) =
      .ok ⟨[c.name], .rows ((ix.rows.map (·[i]?)).filterMap (Option.map ([·])))⟩ := by
  have hlocate : locate t c.name = .ok i :=
    locate_eq_ok_iff.2 (Table.position?_of_distinct (firstRepeated?_eq_none_iff.1 ht.distinct) hc)
  have hplan : planOf t (columnQuery t c.name) = .ok ⟨[i], none, none, none, none, none⟩ := by
    simp only [planOf_eq, columnQuery, positionsOf, placeOf, filterOf, locateOptional, List.mapM_cons,
      List.mapM_nil, hlocate]
    rfl
  obtain ⟨p, hp⟩ : ∃ p : Plan, p = ⟨[i], none, none, none, none, none⟩ := ⟨_, rfl⟩
  have houtput : p.output = [i] := by rw [hp]
  have hindex : p.index? t = some (c.name, ix) :=
    Plan.index?_eq_some_iff.2 ⟨i, c, houtput, hc, hix, rfl⟩
  obtain ⟨rs, hrs⟩ : ∃ rs, (ix.rows.mapM fun r => r.project? p.output) = some rs := by
    refine exists_mapM_some fun r hr => Table.exists_project? (t := t) ?_ ?_
    · exact (ht.rows r (mem_allRows_of_index hix hr)).fits
    · rw [houtput]
      exact fun j hj => List.mem_singleton.1 hj ▸ (List.getElem?_eq_some_iff.1 hc).1
  have hproject : p.project ix.rows = .ok rs := Plan.project_eq_ok_iff.2 hrs
  rw [select, hplan, ← hp]
  change p.run t = _
  rw [Plan.run, hindex]
  simp only [hproject]
  rw [Plan.filterMap_of_project hproject, houtput, filterMap_project?_singleton]
  rfl

/-- A table is faithful exactly if all answers from it are drawn from it. -/
theorem isFaithful_iff {t : Table} (ht : t.IsSound) :
    t.IsFaithful ↔ ∀ s a, select t s = .ok a → a.IsDrawnFrom t := by
  refine ⟨fun h s a => isDrawnFrom_of_select ht h, fun h i c ix hc hix => ?_⟩
  obtain ⟨positions, rows, hpositions, hrows, hdrawn⟩ := h _ _ (select_columnQuery ht hc hix)
  have hposition := Table.position?_of_distinct (firstRepeated?_eq_none_iff.1 ht.distinct) hc
  obtain rfl : positions = [i] := by
    simpa [hposition] using hpositions.symm
  have hlength : ∀ r ∈ t.allRows, i < r.length := by
    intro r hr
    have hfit : r.length = t.columns.length := by
      simpa using congrArg List.length (ht.rows r hr).fits
    exact hfit ▸ (List.getElem?_eq_some_iff.1 hc).1
  -- every row has the value, so that what is projected still tells the values of all rows
  have hback : ∀ rows : List Row, (∀ r ∈ rows, r ∈ t.allRows) →
      ((rows.map (·[i]?)).filterMap (Option.map ([·]))).map List.head? = rows.map (·[i]?) := by
    intro rows hmem
    induction rows with
    | nil => rfl
    | cons r rows ih =>
      obtain ⟨hr, hrest⟩ := List.forall_mem_cons.1 hmem
      have hlt : i < r.length := hlength r hr
      rw [List.map_cons, List.filterMap_cons, List.getElem?_eq_getElem hlt, Option.map_some, List.map_cons,
        ih hrest]
      rfl
  rw [Result.allRows, ← filterMap_of_mapM_some hrows, filterMap_project?_singleton] at hdrawn
  have hheads := subperm_map List.head? hdrawn
  rwa [hback ix.rows fun r => mem_allRows_of_index hix,
    hback t.rows fun r => List.mem_append_left _] at hheads

end ProvenTables.Query
