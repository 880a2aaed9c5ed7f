import ProvenTables.Proofs.Membership.Divisibility
import ProvenTables.Proofs.Query.Filtering

/-!
# Selections

Rows that are selected from a table and projected to some of its columns, a column more than once if it is
named more than once. Their cells are cells of the table, one for each row and column that is named, so that
their roots are among those of the table and their value divides the table's at every point
(`recordRoots_of_selection`).
-/

namespace ProvenTables.Membership

variable {params : Params} {t : Table}

/-- The place of each named column; no names stand for all columns. -/
def placesOf? (t : Table) (names : List String) : Option (List ℕ) :=
  if names.isEmpty then some (List.range t.columns.length) else names.mapM t.position?

/-- The rows with the given numbers, with the values in the given places only. -/
def selected? (t : Table) (numbers places : List ℕ) : Option (List Row) :=
  numbers.mapM fun n => t.rows[n]?.bind (·.project? places)

/-- Every cell of the table is encoded. -/
def IsEncodable (params : Params) (t : Table) : Prop :=
  ∀ r ∈ t.rows, ∀ cell ∈ (placedColumns t).zip r,
    ∃ e, encodeCell params cell.1.2 cell.1.1 cell.2 = .ok e

/-- A table whose values can all be encoded has roots. -/
lemma exists_tableRoots (h : IsEncodable params t) : ∃ roots, tableRoots params t = .ok roots := by
  obtain ⟨ess, hess⟩ := exists_mapM_ok_iff.2 fun r hr => exists_mapM_ok_iff.2 (h r hr)
  exact ⟨ess.flatten, map_eq_ok_iff.2 ⟨ess, hess, rfl⟩⟩

/-- The cells of a table are encoded if its floats can be scaled. -/
lemma isEncodable_iff (ht : ∀ r ∈ t.rows, Table.Fits t.columns r) :
    IsEncodable params t ↔ IsScalable t :=
  forall₂_congr fun r hr => exists_mapM_ok_iff.symm.trans (exists_encodeRow_iff (ht r hr))

/-! ## Columns -/

/-- Whether columns with their places are the columns in the given places. -/
def AreAt (t : Table) : List ℕ → List (ℕ × Column) → Prop :=
  List.Forall₂ fun i p => p.1 = i ∧ t.columns[p.1]? = some p.2

/-- Columns at places have these places. -/
lemma AreAt.map_fst {places : List ℕ} {columns : List (ℕ × Column)} (h : AreAt t places columns) :
    columns.map Prod.fst = places := by
  induction h with
  | nil => rfl
  | cons hp _ ih => rw [List.map_cons, hp.1, ih]

/-- The places of columns are below the number of columns. -/
lemma AreAt.lt_length {places : List ℕ} {columns : List (ℕ × Column)} (h : AreAt t places columns)
    {i : ℕ} (hi : i ∈ places) : i < t.columns.length := by
  obtain ⟨p, -, rfl, hp⟩ := (exists_of_forall₂ h).1 i hi
  exact (List.getElem?_eq_some_iff.1 hp).1

/-- The columns of records are those in the places of their names. -/
lemma exists_placesOf? {names : List String} (h : ∀ n ∈ names, n ∈ t.columnNames) :
    ∃ places columns, placesOf? t names = some places ∧ recordColumns t names = .ok columns ∧
      AreAt t places columns := by
  by_cases hempty : names = []
  · subst hempty
    refine ⟨_, placedColumns t, rfl, rfl, List.forall₂_iff_get.2 ⟨by simp [placedColumns], ?_⟩⟩
    intro i hi hi'
    simp [placedColumns]
  · have hplaces : ∃ places, names.mapM t.position? = some places := by
      refine exists_mapM_some fun n hn => ?_
      obtain ⟨c, hc, rfl⟩ := List.mem_map.1 (h n hn)
      refine Option.isSome_iff_exists.1 ?_
      rw [Table.position?, List.findIdx?_isSome]
      exact List.any_eq_true.2 ⟨c, hc, by simp⟩
    obtain ⟨places, hplaces⟩ := hplaces
    obtain ⟨columns, hcolumns, hall⟩ := exists_recordColumns hplaces hempty
    exact ⟨places, columns, by rw [placesOf?, if_neg (by simpa using hempty), hplaces], hcolumns, hall⟩

/-! ## Rows -/

/-- Rows with different numbers are rows of the table, none of them more often. -/
lemma exists_selected? {numbers places : List ℕ} {rows : List Row} (hnodup : numbers.Nodup)
    (hlt : ∀ n ∈ numbers, n < t.rows.length)
    (hrows : List.Forall₂ (fun r q => r.project? places = some q) t.rows rows) :
    ∃ records, selected? t numbers places = some records ∧ records.length = numbers.length ∧
      records.Subperm rows := by
  have hlength : t.rows.length = rows.length := hrows.length_eq
  have hget : ∀ n ∈ numbers, ∃ q, rows[n]? = some q ∧ t.rows[n]?.bind (·.project? places) = some q := by
    intro n hn
    have hr := List.getElem?_eq_getElem (hlt n hn)
    obtain ⟨q, hq, hproject⟩ := exists_getElem?_of_forall₂ hrows hr
    exact ⟨q, hq, by rw [hr, Option.bind_some, hproject]⟩
  obtain ⟨records, hrecords⟩ : ∃ records, selected? t numbers places = some records :=
    exists_mapM_some fun n hn => (hget n hn).imp fun _ h => h.2
  refine ⟨records, hrecords, (forall₂_of_mapM_some hrecords).length_eq.symm, ?_⟩
  -- the numbers are within all the numbers, and the projected rows are at all of them
  have hsub : numbers.Subperm (List.range rows.length) :=
    List.subperm_of_subset hnodup fun n hn => List.mem_range.2 (hlength ▸ hlt n hn)
  have hfound : numbers.filterMap (rows[·]?) = records := by
    rw [← filterMap_of_mapM_some hrecords]
    refine List.filterMap_congr fun n hn => ?_
    obtain ⟨q, hq, hproject⟩ := hget n hn
    rw [hq, hproject]
  have hrecords := subperm_filterMap (rows[·]?) hsub
  rwa [hfound, Query.filterMap_getElem?_range] at hrecords

/-! ## Cells -/

/-- The places of the cells of a record are those of its columns, each of them once. -/
lemma places_distinctCells (seen : List ℕ) {columns : List (ℕ × Column)} {q : Row}
    (h : q.length = columns.length) :
    ((distinctCells seen columns q).map (·.1.1)).Nodup ∧
      ∀ i, i ∈ (distinctCells seen columns q).map (·.1.1) ↔ i ∈ columns.map Prod.fst ∧ i ∉ seen := by
  induction columns generalizing seen q with
  | nil => simp [distinctCells]
  | cons c cs ih =>
    cases q with
    | nil => cases h
    | cons v vs =>
      have hlength : vs.length = cs.length := Nat.succ.inj h
      rw [distinctCells]
      -- a position seen before is skipped: each place stands at its first column
      split
      · rename_i hseen
        obtain ⟨hnodup, hmem⟩ := ih seen hlength
        refine ⟨hnodup, fun i => (hmem i).trans ?_⟩
        rw [List.map_cons, List.mem_cons]
        constructor
        · exact fun h => ⟨.inr h.1, h.2⟩
        · rintro ⟨rfl | h, hi⟩
          · exact absurd hseen hi
          · exact ⟨h, hi⟩
      · rename_i hnew
        obtain ⟨hnodup, hmem⟩ := ih (c.1 :: seen) hlength
        rw [List.map_cons]
        refine ⟨hnodup.cons fun hc => ((hmem _).1 hc).2 List.mem_cons_self, fun i => ?_⟩
        rw [List.mem_cons, hmem i, List.map_cons, List.mem_cons, List.mem_cons]
        by_cases hi : i = c.1
        · simp [hi, hnew]
        · simp [hi]

/-- A column that is named more than once is one cell of a record. -/
lemma length_distinctCells {columns : List (ℕ × Column)} {q : Row} (h : q.length = columns.length) :
    (distinctCells [] columns q).length = (columns.map Prod.fst).dedup.length := by
  obtain ⟨hnodup, hmem⟩ := places_distinctCells [] h
  rw [← List.length_map (·.1.1)]
  refine ((List.perm_ext_iff_of_nodup hnodup (List.nodup_dedup _)).2 fun i => ?_).length_eq
  rw [hmem, List.mem_dedup, and_iff_left List.not_mem_nil]

/-- Every record has one root for each of its columns, counted once. -/
lemma length_recordRoots {names : List String} {records : List Row} {columns : List (ℕ × Column)}
    {as : List ℕ} (hcolumns : recordColumns t names = .ok columns)
    (hrecords : ∀ q ∈ records, q.length = columns.length)
    (h : recordRoots params t names records = .ok as) :
    as.length = records.length * (columns.map Prod.fst).dedup.length := by
  rw [recordRoots, hcolumns] at h
  obtain ⟨ess, hess, rfl⟩ := map_eq_ok_iff.1 h
  have hall := mapM_eq_ok_iff.1 hess
  clear hess h
  induction hall with
  | nil => simp
  | @cons q es qs ess hes _ ih =>
    obtain ⟨hq, hqs⟩ := List.forall_mem_cons.1 hrecords
    have hlength := (mapM_eq_ok_iff.1 hes).length_eq
    rw [length_distinctCells hq] at hlength
    rw [List.flatten_cons, List.length_append, ih hqs, List.length_cons, ← hlength]
    ring

/-! ## Roots -/

/-- The records that are selected from a table whose cells are encoded have their roots among those of the
table, one for each row and column, and a witness of zero at every point that is none of them. -/
theorem recordRoots_of_selection (params : Params) {t : Table}
    (hrows : ∀ r ∈ t.rows, Table.Fits t.columns r) (hcells : IsEncodable params t)
    {numbers : List ℕ} (hnodup : numbers.Nodup) (hlt : ∀ n ∈ numbers, n < t.rows.length)
    {names : List String} (hnames : ∀ n ∈ names, n ∈ t.columnNames) :
    ∃ places records bs as, placesOf? t names = some places ∧
      selected? t numbers places = some records ∧ tableRoots params t = .ok bs ∧
      recordRoots params t names records = .ok as ∧ as.Subperm bs ∧
      as.length = numbers.length * places.dedup.length ∧
      ∀ point, if point ∈ as then Witness.ofRoots params bs as point = .error .challengeIsRoot
        else ∃ w, Witness.ofRoots params bs as point = .ok w ∧ w.lhs = w.rhs := by
  obtain ⟨places, columns, hplaces, hcolumns, hall⟩ := exists_placesOf? hnames
  obtain ⟨bs, hbs⟩ := exists_tableRoots hcells
  have hproject : ∃ rows, t.rows.mapM (·.project? places) = some rows := by
    exact exists_mapM_some fun r hr => Table.exists_project? (hrows r hr) fun i => hall.lt_length
  obtain ⟨rows, hproject⟩ := hproject
  have hprojected := forall₂_of_mapM_some hproject
  obtain ⟨records, hselected, hlength, hsub⟩ := exists_selected? hnodup hlt hprojected
  have hhonest : Claim.IsHonest ⟨t, names, records⟩ :=
    ⟨columns, rows, hcolumns, hprojected.imp fun r q hq => subset_of_project? hall hq, hsub⟩
  obtain ⟨as, has, hwithin⟩ := exists_recordRoots hhonest hbs
  refine ⟨places, records, bs, as, hplaces, hselected, hbs, has, hwithin, ?_, fun point => ?_⟩
  · rw [length_recordRoots hcolumns (fun q hq => ?_) has, hlength, hall.map_fst]
    obtain ⟨n, -, hn⟩ := exists_of_mapM_some hselected q hq
    obtain ⟨r, -, hr⟩ := Option.bind_eq_some_iff.1 hn
    rw [← (forall₂_of_mapM_some hr).length_eq, hall.length_eq]
  · split
    · exact ofRoots_of_mem ‹_›
    · exact ofRoots_of_subperm params hwithin ‹_›

/-- A table with two equal rows. -/
def people : Table where
  name := "people"
  columns := [⟨"name", .string⟩, ⟨"age", .int⟩]
  rows := [[.string "Ann", .int 30], [.string "Bob", .int (-7)], [.string "Ann", .int 30]]
  indexes := .empty

/-- Two equal rows, in reverse, with a column that is named twice have four roots. -/
theorem recordRoots_of_selection_people :
    (∀ r ∈ people.rows, Table.Fits people.columns r) ∧ IsEncodable .bn254 people ∧ [2, 0].Nodup ∧
      (∀ n ∈ [2, 0], n < people.rows.length) ∧
      (∀ n ∈ ["age", "name", "age"], n ∈ people.columnNames) ∧
      ∃ bs as, tableRoots .bn254 people = .ok bs ∧
        recordRoots .bn254 people ["age", "name", "age"]
          [[.int 30, .string "Ann", .int 30], [.int 30, .string "Ann", .int 30]] = .ok as ∧
        as.Subperm bs ∧ as.length = 4 := by
  have hrows : ∀ r ∈ people.rows, Table.Fits people.columns r := by decide
  have hcells : IsEncodable .bn254 people := (isEncodable_iff hrows).2 (by decide)
  have hnodup : [2, 0].Nodup := by decide
  have hlt : ∀ n ∈ [2, 0], n < people.rows.length := by decide
  have hnames : ∀ n ∈ ["age", "name", "age"], n ∈ people.columnNames := by decide
  obtain ⟨places, records, bs, as, hplaces, hselected, hbs, has, hwithin, hlength, -⟩ :=
    recordRoots_of_selection .bn254 hrows hcells hnodup hlt hnames
  obtain rfl : [1, 0, 1] = places := Option.some.inj hplaces
  obtain rfl := Option.some.inj hselected
  exact ⟨hrows, hcells, hnodup, hlt, hnames, bs, as, hbs, has, hwithin, hlength⟩

end ProvenTables.Membership
