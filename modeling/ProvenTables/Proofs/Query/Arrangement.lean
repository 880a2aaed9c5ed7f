import ProvenTables.Proofs.Query.Filtering
import ProvenTables.Proofs.Query.Grouping
import ProvenTables.Proofs.Query.Sorting

/-!
# The order of answers

What a query asks for is said of the places of rows: which rows match, and which of two rows comes first.
There is one way to arrange places so (`IsArranged.eq`), and the rows of an answer are the matching rows
arranged so, group by group, then cut and projected (`select_arranged`).
-/

namespace ProvenTables.Query

open Sql Std

/-! ## What a query asks for -/

/-- The cell of a row in a column, by the place of the row in the table. -/
def cell? (t : Table) (column : String) (n : ℕ) : Option Scalar := do
  (← t.rows[n]?)[← t.position? column]?

/-- The value that a filter looks for: an integer in a column of integers, and else a string. -/
def sought? (t : Table) (f : Filter) : Option Scalar := do
  let c ← t.columns[← t.position? f.column]?
  if c.type = .int then (readInt64? (Text.trim f.literal.toList)).map .int
  else some (.string (String.ofList (stripQuotes f.literal.toList)))

/-- The places of the rows with the value that the filter looks for. -/
def matching (t : Table) (s : Select) : List ℕ :=
  (List.range t.rows.length).filter fun n =>
    s.filter.all fun f => (sought? t f).any fun x => cell? t f.column n = some x

/-- The similarity of the vector of a row to that of a ranking. -/
def similarity? (t : Table) (r : Ranking) (n : ℕ) : Option Binary64 :=
  match cell? t r.column n with
  | some (.floats xs) => cosine? xs r.vector
  | _ => none

/-- The more similar row first, and rows without a similarity last. -/
def bySimilarity (t : Table) (s : Select) (m n : ℕ) : Ordering :=
  match s.ranking with
  | some r => orderScores (similarity? t r m) (similarity? t r n)
  | none => .eq

/-- The row with the smaller cell first. -/
def byCell (t : Table) (s : Select) (m n : ℕ) : Ordering :=
  match s.orderBy.bind (cell? t · m), s.orderBy.bind (cell? t · n) with
  | some x, some y => x.order y
  | _, _ => .eq

/-- The order of two rows in an answer: by similarity, then by their cells, then by their places. -/
def precedes (t : Table) (s : Select) (m n : ℕ) : Ordering :=
  (bySimilarity t s m n).then ((byCell t s m n).then (compare m n))

/-- The places, each as often as given, in the order of an answer. -/
structure IsArranged (t : Table) (s : Select) (places arranged : List ℕ) : Prop where
  perm : arranged.Perm places
  sorted : arranged.Pairwise fun m n => precedes t s m n = .lt

/-- The rows at places, each with its values at the positions of the output only. -/
def AreProjected (t : Table) (output : List ℕ) (places : List ℕ) (rs : List Row) : Prop :=
  List.Forall₂ (fun n q => ∃ r, t.rows[n]? = some r ∧ r.project? output = some q) places rs

/-- The only column of the output has an index, whose rows are the answer. -/
def IsIndexed (t : Table) (s : Select) : Prop := ∃ p ix, planOf t s = .ok p ∧ p.index? t = some ix

variable {t : Table} {s : Select} {p : Plan}

/-- Two rows exchanged are compared the other way round. -/
lemma precedes_swap (t : Table) (s : Select) (m n : ℕ) : precedes t s m n = (precedes t s n m).swap := by
  have hscore : bySimilarity t s m n = (bySimilarity t s n m).swap := by
    cases hs : s.ranking with
    | none => simp only [bySimilarity, hs, Ordering.swap_eq]
    | some r =>
      simp only [bySimilarity, hs]
      exact OrientedCmp.eq_swap
  have hcell : byCell t s m n = (byCell t s n m).swap := by
    rw [byCell, byCell]
    cases s.orderBy.bind (cell? t · m) with
    | none => cases s.orderBy.bind (cell? t · n) <;> rfl
    | some x =>
      cases s.orderBy.bind (cell? t · n) with
      | none => rfl
      | some y =>
        have hswap : x.order y = (y.order x).swap := OrientedCmp.eq_swap
        exact hswap
  have hplace : compare m n = (compare n m).swap := OrientedCmp.eq_swap
  rw [precedes, precedes, hscore, hcell, hplace, Ordering.swap_then, Ordering.swap_then]

/-- There is one way to arrange places in the order of an answer. -/
lemma IsArranged.eq {places a b : List ℕ} (ha : IsArranged t s places a) (hb : IsArranged t s places b) :
    a = b := by
  refine List.Perm.eq_of_pairwise (fun m n _ _ hmn hnm => ?_) ha.sorted hb.sorted (ha.perm.trans hb.perm.symm)
  rw [precedes_swap, hmn] at hnm
  cases hnm

/-! ## The clauses of a plan -/

/-- A query has a plan if each of its clauses has its part of it. -/
lemma planOf_eq_ok_iff : planOf t s = .ok p ↔ ∃ output,
    positionsOf t s.projection = .ok output ∧ placeOf t s.ranking = .ok p.ranking ∧
    filterOf t s.filter = .ok p.condition ∧ locateOptional t s.groupBy = .ok p.groupBy ∧
    locateOptional t s.orderBy = .ok p.orderBy ∧ p.output = withRanked output p.ranking ∧
    p.limit = s.limit := by
  simp only [planOf_eq, bind_eq_ok_iff]
  constructor
  · rintro ⟨output, houtput, ranking, hranking, c, hc, g, hg, o, ho, hp⟩
    cases hp
    exact ⟨output, houtput, hranking, hc, hg, ho, rfl, rfl⟩
  · rintro ⟨output, houtput, hranking, hc, hg, ho, hp, hlimit⟩
    refine ⟨output, houtput, _, hranking, _, hc, _, hg, _, ho, ?_⟩
    rw [← hp, ← hlimit]
    rfl

/-- A column that is located is at its position. -/
lemma locateOptional_some {c : String} {o : Option ℕ} (h : locateOptional t (some c) = .ok o) :
    ∃ i, o = some i ∧ t.position? c = some i := by
  obtain ⟨i, hi, rfl⟩ := map_eq_ok_iff.1 h
  exact ⟨i, rfl, locate_eq_ok_iff.1 hi⟩

/-- The column of a ranking is at its position. -/
lemma placeOf_some {r : Ranking} {o : Option (ℕ × List Binary64)} (h : placeOf t (some r) = .ok o) :
    ∃ i, o = some (i, r.vector) ∧ t.position? r.column = some i := by
  obtain ⟨i, hi, ho⟩ := bind_eq_ok_iff.1 h
  cases ho
  exact ⟨i, rfl, locate_eq_ok_iff.1 hi⟩

/-- The condition of a filter is that the value it looks for is in its column. -/
lemma exists_of_conditionOf {f : Filter} {c : Condition} (h : conditionOf t f = .ok c) :
    t.position? f.column = some c.position ∧ sought? t f = some c.value ∧
      (c.value.type = .int ∨ c.value.type = .string) := by
  obtain ⟨i, hi, hc⟩ := bind_eq_ok_iff.1 h
  have hposition := locate_eq_ok_iff.1 hi
  obtain ⟨column, hcolumn, -⟩ := Table.exists_of_position? hposition
  have hsought : sought? t f = if column.type = .int then
      (readInt64? (Text.trim f.literal.toList)).map .int
      else some (.string (String.ofList (stripQuotes f.literal.toList))) := by
    rw [sought?, hposition]
    simp only [Option.bind_eq_bind, Option.bind_some, hcolumn]
  simp only [hcolumn, Option.map_some, Option.some_inj] at hc
  rw [hsought]
  by_cases htype : column.type = .int
  · rw [if_pos htype] at hc ⊢
    cases hread : readInt64? (Text.trim f.literal.toList) with
    | none =>
      rw [hread] at hc
      cases hc
    | some n =>
      rw [hread] at hc
      cases hc
      exact ⟨hposition, rfl, .inl rfl⟩
  · rw [if_neg htype] at hc ⊢
    cases hc
    exact ⟨hposition, rfl, .inr rfl⟩

/-! ## Rows by their places -/

/-- The row at a place of the table. -/
def rowAt (t : Table) (n : ℕ) : Row := (t.rows[n]?).getD []

/-- The row at a place is the element there. -/
lemma getElem?_rowAt {n : ℕ} (hn : n < t.rows.length) : t.rows[n]? = some (rowAt t n) := by
  rw [rowAt, List.getElem?_eq_getElem hn, Option.getD_some]

/-- The row at a place of the table is a row of the table. -/
lemma rowAt_mem {n : ℕ} (hn : n < t.rows.length) : rowAt t n ∈ t.rows :=
  List.mem_of_getElem? (getElem?_rowAt hn)

/-- The rows at all places are the rows of the table. -/
lemma map_rowAt (t : Table) : (List.range t.rows.length).map (rowAt t) = t.rows := by
  refine List.ext_getElem (by simp) fun n _ hn => ?_
  rw [List.getElem_map, List.getElem_range, rowAt, List.getElem?_eq_getElem hn, Option.getD_some]

/-- The cell of a column at a place is the one at the position of the column. -/
lemma cell?_eq {c : String} {i n : ℕ} (hc : t.position? c = some i) (hn : n < t.rows.length) :
    cell? t c n = (rowAt t n)[i]? := by
  rw [cell?, getElem?_rowAt hn, hc]
  rfl

/-- A row that fits the columns has a cell in each of them, of its type. -/
lemma exists_cell? (hrows : ∀ r ∈ t.rows, Table.Fits t.columns r) {c : String} {i n : ℕ}
    (hc : t.position? c = some i) (hn : n < t.rows.length) :
    ∃ x, cell? t c n = some x ∧ (rowAt t n)[i]? = some x ∧ t.columns[i]?.map (·.type) = some x.type := by
  obtain ⟨column, hcolumn, -⟩ := Table.exists_of_position? hc
  have hfits := congrArg (·[i]?) (hrows _ (rowAt_mem hn))
  simp only [List.getElem?_map, hcolumn, Option.map_some, Option.map_eq_some_iff] at hfits
  obtain ⟨x, hx, htype⟩ := hfits
  exact ⟨x, (cell?_eq hc hn).trans hx, hx, by rw [hcolumn, Option.map_some, htype]⟩

/-- The places that match are places of the table. -/
lemma lt_of_mem_matching {n : ℕ} (h : n ∈ matching t s) : n < t.rows.length :=
  List.mem_range.1 (List.mem_of_mem_filter h)

/-- The places that match are in the order of the table. -/
lemma pairwise_matching (t : Table) (s : Select) : (matching t s).Pairwise (· < ·) :=
  List.pairwise_lt_range.filter _

/-- A plan keeps the rows at the matching places. -/
lemma filter_keeps (h : planOf t s = .ok p) : t.rows.filter p.keeps = (matching t s).map (rowAt t) := by
  obtain ⟨-, -, -, hfilter, -⟩ := planOf_eq_ok_iff.1 h
  have hkeeps : ∀ n ∈ List.range t.rows.length, p.keeps (rowAt t n) =
      s.filter.all fun f => (sought? t f).any fun x => cell? t f.column n = some x := by
    intro n hn
    cases hs : s.filter with
    | none =>
      rw [hs] at hfilter
      have hcondition : none = p.condition := Except.ok.inj hfilter
      rw [Plan.keeps, ← hcondition]
      rfl
    | some f =>
      rw [hs] at hfilter
      obtain ⟨c, hc, hcondition⟩ := map_eq_ok_iff.1 hfilter
      obtain ⟨hposition, hsought, htype⟩ := exists_of_conditionOf hc
      rw [Plan.keeps, ← hcondition, Option.all_some, hsought, Option.any_some,
        cell?_eq hposition (List.mem_range.1 hn)]
      exact holds_eq_of_type htype _ _
  calc t.rows.filter p.keeps
      = ((List.range t.rows.length).map (rowAt t)).filter p.keeps := by rw [map_rowAt]
    _ = ((List.range t.rows.length).filter (p.keeps ∘ rowAt t)).map (rowAt t) := List.filter_map
    _ = (matching t s).map (rowAt t) := congrArg _ (List.filter_congr hkeeps)

/-! ## Arranged rows -/

/-- Rows in the order of the cells that a plan orders by. -/
def Plan.ordered (p : Plan) (rows : List Row) : List Row :=
  match p.orderBy with
  | some i => sortRows (orderAt i) rows
  | none => rows

/-- Rows in the order of the scores that a plan ranks by. -/
def Plan.ranked (p : Plan) (rows : List Row) : List Row :=
  match p.ranking with
  | some (i, v) => sortRows (fun a b => orderScores (score? i v a) (score? i v b)) rows
  | none => rows

/-- Rows are arranged by ordering them and then ranking them. -/
lemma Plan.arrange_eq (p : Plan) (rows : List Row) : p.arrange rows = p.ranked (p.ordered rows) := rfl

section Arranged

variable {places : List ℕ} (hrows : ∀ r ∈ t.rows, Table.Fits t.columns r)
  (hlt : ∀ n ∈ places, n < t.rows.length)

include hrows hlt in
/-- Rows in table order are put in the order of their cells. -/
lemma exists_ordered (h : locateOptional t s.orderBy = .ok p.orderBy) (hplaces : places.Pairwise (· < ·)) :
    ∃ js : List ℕ, p.ordered (places.map (rowAt t)) = js.map (rowAt t) ∧ js.Perm places ∧
      js.Pairwise fun m n => (byCell t s m n).then (compare m n) = .lt := by
  have hcompare : places.Pairwise fun m n => compare m n = .lt := hplaces.imp compare_lt_iff_lt.2
  cases hs : s.orderBy with
  | none =>
    rw [hs] at h
    have horder : none = p.orderBy := Except.ok.inj h
    rw [Plan.ordered, ← horder]
    refine ⟨places, rfl, .refl _, ?_⟩
    simpa only [byCell, hs, Option.bind_none, Ordering.eq_then] using hcompare
  | some c =>
    rw [hs] at h
    obtain ⟨i, hi, hposition⟩ := locateOptional_some h
    -- missing cells, which no row has, would spoil the order
    obtain ⟨key, hkey⟩ : ∃ key : ℕ → Scalar, ∀ n ∈ places, cell? t c n = some (key n) := by
      refine ⟨fun n => (cell? t c n).getD (.bool false), fun n hn => ?_⟩
      obtain ⟨x, hx, -⟩ := exists_cell? hrows hposition (hlt n hn)
      simp only [hx, Option.getD_some]
    have horder : ∀ m ∈ places, ∀ n ∈ places,
        orderAt i (rowAt t m) (rowAt t n) = (key m).order (key n) := by
      intro m hm n hn
      have hm' := (cell?_eq hposition (hlt m hm)).symm.trans (hkey m hm)
      have hn' := (cell?_eq hposition (hlt n hn)).symm.trans (hkey n hn)
      rw [orderAt, hm', hn']
    have := transCmp_comap Scalar.order key
    obtain ⟨js, hjs, hperm, hsorted⟩ := exists_sortRows (orderAt i) (rowAt t) horder hcompare
    rw [Plan.ordered, hi]
    refine ⟨js, hjs, hperm, hsorted.imp_of_mem fun {m n} hm hn hmn => ?_⟩
    simp only [byCell, Option.bind_some, hs, hkey m (hperm.subset hm), hkey n (hperm.subset hn)]
    exact hmn

include hrows hlt in
/-- Rows in table order are arranged in the order of the answer. -/
lemma exists_arranged (h : planOf t s = .ok p) (hplaces : places.Pairwise (· < ·)) :
    ∃ arranged, p.arrange (places.map (rowAt t)) = arranged.map (rowAt t) ∧
      IsArranged t s places arranged := by
  obtain ⟨-, -, hranking, -, -, horderBy, -⟩ := planOf_eq_ok_iff.1 h
  obtain ⟨is, his, hperm, hsorted⟩ := exists_ordered hrows hlt horderBy hplaces
  rw [Plan.arrange_eq, his, Plan.ranked]
  cases hs : s.ranking with
  | none =>
    rw [hs] at hranking
    have hnone : none = p.ranking := Except.ok.inj hranking
    rw [← hnone]
    refine ⟨is, rfl, hperm, ?_⟩
    simpa only [precedes, bySimilarity, hs, Ordering.eq_then] using hsorted
  | some r =>
    rw [hs] at hranking
    obtain ⟨i, hi, hposition⟩ := placeOf_some hranking
    have hscore : ∀ n ∈ is, score? i r.vector (rowAt t n) = similarity? t r n := by
      intro n hn
      rw [similarity?, cell?_eq hposition (hlt n (hperm.subset hn))]
      rfl
    have horder : ∀ m ∈ is, ∀ n ∈ is,
        orderScores (score? i r.vector (rowAt t m)) (score? i r.vector (rowAt t n)) =
          orderScores (similarity? t r m) (similarity? t r n) :=
      fun m hm n hn => congrArg₂ orderScores (hscore m hm) (hscore n hn)
    -- the ranking sorts the ordered places once more, stably, so ties keep the order of `is`
    have := transCmp_comap orderScores (similarity? t r)
    obtain ⟨js, hjs, hperm', hsorted'⟩ := exists_sortRows
      (fun a b => orderScores (score? i r.vector a) (score? i r.vector b)) (rowAt t) horder hsorted
    rw [hi]
    refine ⟨js, hjs, hperm'.trans hperm, ?_⟩
    simp only [precedes, bySimilarity, hs]
    exact hsorted'

end Arranged

/-! ## Projected rows -/

/-- The plan without its limit. -/
def Plan.unlimited (p : Plan) : Plan := { p with limit := none }

/-- The plan of a query without its limit is its plan without the limit. -/
lemma planOf_unlimited (h : planOf t s = .ok p) : planOf t { s with limit := none } = .ok p.unlimited := by
  obtain ⟨output, houtput, hranking, hfilter, hgroup, horder, hp, -⟩ := planOf_eq_ok_iff.1 h
  exact planOf_eq_ok_iff.2 ⟨output, houtput, hranking, hfilter, hgroup, horder, hp, rfl⟩

section Projected

variable (hrows : ∀ r ∈ t.rows, Table.Fits t.columns r) (h : planOf t s = .ok p)

include hrows h in
/-- The rows at places of a table can be projected. -/
lemma exists_projected {places : List ℕ} (hlt : ∀ n ∈ places, n < t.rows.length) :
    ∃ rs, p.project (places.map (rowAt t)) = .ok rs ∧ AreProjected t p.output places rs := by
  have hfits : ∀ r ∈ places.map (rowAt t), Table.Fits t.columns r := by
    intro r hr
    obtain ⟨n, hn, rfl⟩ := List.mem_map.1 hr
    exact hrows _ (rowAt_mem (hlt n hn))
  obtain ⟨rs, hrs, -⟩ := Plan.exists_project hfits (output_lt h)
  refine ⟨rs, hrs, ?_⟩
  have hproject := List.forall₂_map_left_iff.1 (Plan.project_eq_ok_iff_forall₂.1 hrs)
  refine ((List.forall₂_and_left _ _).2 ⟨hlt, hproject⟩).imp fun n q hq => ?_
  exact ⟨rowAt t n, getElem?_rowAt hq.1, hq.2⟩

include hrows in
/-- The keys of groups are the texts of the cells. -/
lemma isGrouping_matching {g : String} {i : ℕ} (hg : t.position? g = some i) :
    IsGrouping (fun m n => (cell? t g m).map Scalar.render = (cell? t g n).map Scalar.render) (matching t s)
      (groupsOf (fun n => groupKey i (rowAt t n)) (matching t s)) := by
  refine (isGrouping_groupsOf _ (pairwise_matching t s)).congr fun m hm n hn => ?_
  obtain ⟨x, hx, hrowx, -⟩ := exists_cell? hrows hg (lt_of_mem_matching hm)
  obtain ⟨y, hy, hrowy, -⟩ := exists_cell? hrows hg (lt_of_mem_matching hn)
  rw [groupKey, groupKey, hrowx, hrowy, hx, hy, Option.map_some, Option.map_some, Option.some_inj]
  rfl

include hrows h in
/-- A group of places is arranged and projected by itself. -/
lemma exists_projected_arranged {places : List ℕ} (hlt : ∀ n ∈ places, n < t.rows.length)
    (hplaces : places.Pairwise (· < ·)) :
    ∃ rs, p.project (p.arrange (places.map (rowAt t))) = .ok rs ∧
      ∃ arranged, IsArranged t s places arranged ∧ AreProjected t p.output arranged rs := by
  obtain ⟨arranged, harrange, harranged⟩ := exists_arranged hrows hlt h hplaces
  obtain ⟨rs, hrs, hprojected⟩ := exists_projected hrows h fun n hn => hlt n (harranged.perm.subset hn)
  exact ⟨rs, harrange ▸ hrs, arranged, harranged, hprojected⟩

include hrows h in
/-- The rows of the unlimited answer are the matching rows, arranged. -/
lemma exists_rows (hindex : p.index? t = none) (hgroup : s.groupBy = none) :
    ∃ rs, (∃ arranged, IsArranged t s (matching t s) arranged ∧ AreProjected t p.output arranged rs) ∧
      p.unlimited.run t = .ok ⟨p.outputNames t, .rows rs⟩ ∧
      p.run t = .ok ⟨p.outputNames t, .rows (s.limit.elim rs (rs.take ·))⟩ := by
  obtain ⟨-, -, -, -, hgroupBy, -, -, hlimit⟩ := planOf_eq_ok_iff.1 h
  rw [hgroup] at hgroupBy
  have hnone : none = p.groupBy := Except.ok.inj hgroupBy
  obtain ⟨rs, hrs, harranged⟩ :=
    exists_projected_arranged hrows h (fun _ => lt_of_mem_matching) (pairwise_matching t s)
  rw [← filter_keeps h] at hrs
  refine ⟨rs, harranged, ?_, ?_⟩
  · exact Plan.run_of_ungrouped (p := p.unlimited) hindex hnone.symm hrs
  · rw [Plan.run_of_ungrouped hindex hnone.symm hrs, Plan.cut_eq, hlimit]

include hrows h in
/-- The groups of the unlimited answer are those of the matching rows by text, each arranged. -/
lemma exists_groups (hindex : p.index? t = none) {g : String} (hgroup : s.groupBy = some g) :
    ∃ groups gs, IsGrouping (fun m n => (cell? t g m).map Scalar.render = (cell? t g n).map Scalar.render)
        (matching t s) groups ∧
      List.Forall₂ (fun places rs => ∃ arranged, IsArranged t s places arranged ∧
        AreProjected t p.output arranged rs) groups gs ∧
      p.unlimited.run t = .ok ⟨p.outputNames t, .groups gs⟩ ∧
      p.run t = .ok ⟨p.outputNames t, .groups (s.limit.elim gs (gs.take ·))⟩ := by
  obtain ⟨-, -, -, -, hgroupBy, -, -, hlimit⟩ := planOf_eq_ok_iff.1 h
  rw [hgroup] at hgroupBy
  obtain ⟨i, hi, hposition⟩ := locateOptional_some hgroupBy
  have hgrouping := isGrouping_matching (s := s) hrows hposition
  generalize hgroups : groupsOf (fun n => groupKey i (rowAt t n)) (matching t s) = groups at hgrouping
  have hparts : ∀ places ∈ groups, ∃ rs, p.project (p.arrange (places.map (rowAt t))) = .ok rs ∧
      ∃ arranged, IsArranged t s places arranged ∧ AreProjected t p.output arranged rs :=
    fun places hplaces => exists_projected_arranged hrows h
      (fun n hn => lt_of_mem_matching (hgrouping.subset hplaces hn)) (hgrouping.increasing places hplaces)
  -- grouping commutes with reading the rows at the places
  have hrun : (groupRows i (t.rows.filter p.keeps)).map p.arrange =
      groups.map fun places => p.arrange (places.map (rowAt t)) := by
    rw [filter_keeps h, groupRows_map, hgroups, List.map_map]
    rfl
  obtain ⟨gs, hgs⟩ : ∃ gs,
      (groups.map fun places => p.arrange (places.map (rowAt t))).mapM p.project = .ok gs := by
    refine exists_mapM_ok_iff.2 fun rows hrows => ?_
    obtain ⟨places, hplaces, rfl⟩ := List.mem_map.1 hrows
    exact (hparts places hplaces).imp fun rs hrs => hrs.1
  have harranged := (List.forall₂_and_left _ _).2 ⟨hparts, List.forall₂_map_left_iff.1 (mapM_eq_ok_iff.1 hgs)⟩
  rw [← hrun] at hgs
  refine ⟨groups, gs, hgrouping, harranged.imp ?_, ?_, ?_⟩
  · rintro places rs ⟨⟨rs', hrs', hplaces⟩, hrs⟩
    obtain rfl : rs' = rs := Except.ok.inj (hrs'.symm.trans hrs)
    exact hplaces
  · exact Plan.run_of_grouped (p := p.unlimited) hindex hi hgs
  · rw [Plan.run_of_grouped hindex hi hgs, Plan.cut_eq, hlimit]

end Projected

/-- A query that is not answered from an index is answered with its matching rows, arranged and projected.
They are one list or one list for each text of the cells it groups by, and a limit keeps the first of the rows
or of the groups. -/
theorem select_arranged {a : Answer} (hrows : ∀ r ∈ t.rows, Table.Fits t.columns r) (hindex : ¬IsIndexed t s)
    (h : select t s = .ok a) :
    (∀ places b c, IsArranged t s places b → IsArranged t s places c → b = c) ∧
    ∃ p, planOf t s = .ok p ∧ a.columns = p.outputNames t ∧
      (s.groupBy = none → ∃ rs,
        (∃ arranged, IsArranged t s (matching t s) arranged ∧ AreProjected t p.output arranged rs) ∧
        select t { s with limit := none } = .ok ⟨a.columns, .rows rs⟩ ∧
        a.result = .rows (s.limit.elim rs (rs.take ·))) ∧
      ∀ g, s.groupBy = some g → ∃ groups gs,
        IsGrouping (fun m n => (cell? t g m).map Scalar.render = (cell? t g n).map Scalar.render)
          (matching t s) groups ∧
        List.Forall₂ (fun places rs => ∃ arranged, IsArranged t s places arranged ∧
          AreProjected t p.output arranged rs) groups gs ∧
        select t { s with limit := none } = .ok ⟨a.columns, .groups gs⟩ ∧
        a.result = .groups (s.limit.elim gs (gs.take ·)) := by
  obtain ⟨p, hp, hrun⟩ := bind_eq_ok_iff.1 h
  have hnone : p.index? t = none :=
    Option.eq_none_iff_forall_not_mem.2 fun ix hix => hindex ⟨p, ix, hp, hix⟩
  have hunlimited : select t { s with limit := none } = p.unlimited.run t := by
    rw [select, planOf_unlimited hp]
    rfl
  refine ⟨fun places b c => IsArranged.eq, p, hp, ?_, fun hgroup => ?_, fun g hgroup => ?_⟩
  · exact Plan.columns_of_run hnone hrun
  · obtain ⟨rs, harranged, hall, hlimited⟩ := exists_rows hrows hp hnone hgroup
    obtain rfl := Except.ok.inj (hrun.symm.trans hlimited)
    exact ⟨rs, harranged, hunlimited.trans hall, rfl⟩
  · obtain ⟨groups, gs, hgrouping, harranged, hall, hlimited⟩ := exists_groups hrows hp hnone hgroup
    obtain rfl := Except.ok.inj (hrun.symm.trans hlimited)
    exact ⟨groups, gs, hgrouping, harranged, hunlimited.trans hall, rfl⟩

/-- Teams with their profiles; one of the profiles has no direction. -/
def teams : Table where
  name := "teams"
  columns := [⟨"team", .string⟩, ⟨"points", .int⟩, ⟨"profile", .floats⟩]
  rows := [[.string "green", .int 1, .floats [.zero, .one]], [.string "red", .int 3, .floats [.one, .zero]],
    [.string "blue", .int 1, .floats [.zero, .zero]], [.string "pink", .int 3, .floats [.one, .zero]],
    [.string "white", .int 2, .floats [.one, .zero]]]
  indexes := .empty

/-- The four teams closest to a profile, and among equally close ones those with the fewest points. -/
def closestTeams : Select :=
  ⟨"teams", .columns ["team"], none, none, some "points", some 4, some ⟨"profile", [.one, .zero]⟩⟩

/-- Three teams are equally close and two of them have equal points. A fourth is less close, although it has
fewer points, and the one without a direction would be last. -/
theorem select_arranged_teams :
    (∀ r ∈ teams.rows, Table.Fits teams.columns r) ∧ ¬IsIndexed teams closestTeams ∧
      select teams closestTeams = .ok ⟨["team", "profile"],
        .rows [[.string "white", .floats [.one, .zero]], [.string "red", .floats [.one, .zero]],
          [.string "pink", .floats [.one, .zero]], [.string "green", .floats [.zero, .one]]]⟩ ∧
      ∃ p rs, planOf teams closestTeams = .ok p ∧
        (∃ arranged, IsArranged teams closestTeams [0, 1, 2, 3, 4] arranged ∧
          AreProjected teams p.output arranged rs) ∧
        select teams { closestTeams with limit := none } = .ok ⟨["team", "profile"], .rows rs⟩ ∧
        select teams closestTeams = .ok ⟨["team", "profile"], .rows (rs.take 4)⟩ := by
  have hrows : ∀ r ∈ teams.rows, Table.Fits teams.columns r := by decide
  have hplan : planOf teams closestTeams =
      .ok ⟨[0, 2], some (2, [.one, .zero]), none, none, some 1, some 4⟩ := rfl
  have hindex : ¬IsIndexed teams closestTeams := by
    rintro ⟨p, ix, hp, hix⟩
    obtain rfl := Except.ok.inj (hplan.symm.trans hp)
    cases hix
  have hselect : select teams closestTeams = .ok ⟨["team", "profile"],
      .rows [[.string "white", .floats [.one, .zero]], [.string "red", .floats [.one, .zero]],
        [.string "pink", .floats [.one, .zero]], [.string "green", .floats [.zero, .one]]]⟩ := by
    decide +kernel
  obtain ⟨-, p, hp, -, hungrouped, -⟩ := select_arranged hrows hindex hselect
  obtain ⟨rs, harranged, hall, hresult⟩ := hungrouped rfl
  refine ⟨hrows, hindex, hselect, p, rs, hp, harranged, hall, hselect.trans ?_⟩
  exact congrArg (fun result => Except.ok (Answer.mk ["team", "profile"] result)) hresult

end ProvenTables.Query
