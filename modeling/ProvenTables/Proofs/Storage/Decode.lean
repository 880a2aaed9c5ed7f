import ProvenTables.Proofs.Storage.Payload
import ProvenTables.Storage.History

/-!
# Decoding what tables are encoded as

Rows, indexes and tables that are sound decode to themselves exactly if they are dated, that is if no
timestamp in them has a signed year.
-/

namespace ProvenTables

/-- No float of the row is infinite or no number. -/
def Row.IsFinite (r : Row) : Prop := ∀ x ∈ r, x.IsFinite

/-- No timestamp of the row has a signed year. -/
def Row.IsDated (r : Row) : Prop := ∀ x ∈ r, x.IsDated

/-- Whether all values of a row are read back can be decided. -/
instance (r : Row) : Decidable r.IsDated := by unfold Row.IsDated; infer_instance

/-- A row of values that columns can hold. -/
structure Row.IsSound (columns : List Column) (r : Row) : Prop where
  fits : Table.Fits columns r
  isFinite : r.IsFinite

namespace Table

/-- The rows of a table and of its indexes. -/
def allRows (t : Table) : List Row := t.rows ++ t.indexes.values.flatMap Index.rows

/-- A table of distinct columns, of which all rows can be held by the columns. -/
structure IsSound (t : Table) : Prop where
  distinct : firstRepeated? t.columnNames = none
  rows : ∀ r ∈ t.allRows, r.IsSound t.columns

/-- The rows of a sound table are sound. -/
lemma IsSound.row {t : Table} (h : t.IsSound) {r : Row} (hr : r ∈ t.rows) : r.IsSound t.columns :=
  h.rows r (List.mem_append_left _ hr)

/-- No timestamp of the table has a signed year. -/
def IsDated (t : Table) : Prop := ∀ r ∈ t.allRows, r.IsDated

/-- Whether all values of a table are read back can be decided. -/
instance (t : Table) : Decidable t.IsDated := by unfold IsDated; infer_instance

end Table

namespace Index

/-- The rows of an index are those of its buckets. -/
lemma mem_rows_iff {ix : Index} {r : Row} : r ∈ ix.rows ↔ ∃ b ∈ ix.buckets.entries, r ∈ b.2 := by
  rw [rows, SortedMap.values, ← List.flatMap_def, List.mem_flatMap]

/-- A row of an index with one more row is one of its rows or the new one. -/
lemma mem_rows_add {ix : Index} {key : String} {q r : Row} (h : r ∈ (ix.add key q).rows) :
    r ∈ ix.rows ∨ r = q := by
  obtain ⟨b, hb, hr⟩ := mem_rows_iff.1 h
  rcases SortedMap.mem_insertEntry hb with rfl | hb
  · rcases List.mem_append.1 hr with hr | hr
    · cases hget : ix.buckets.get? key with
      | none => rw [hget] at hr; cases hr
      | some rs =>
        rw [hget] at hr
        exact .inl (mem_rows_iff.2 ⟨(key, rs), SortedMap.mem_entries_iff.2 hget, hr⟩)
    · exact .inr (List.mem_singleton.1 hr)
  · exact .inl (mem_rows_iff.2 ⟨b, hb, hr⟩)

/-- A row of an index that rows have been added to is one of its rows or of those. -/
lemma mem_rows_foldl {f : Index → Row → Index} {r : Row}
    (hf : ∀ ix q, r ∈ (f ix q).rows → r ∈ ix.rows ∨ r = q) {qs : List Row} {ix : Index}
    (h : r ∈ (qs.foldl f ix).rows) : r ∈ ix.rows ∨ r ∈ qs := by
  induction qs generalizing ix with
  | nil => exact .inl h
  | cons q qs ih =>
    rcases ih h with h | h
    · exact (hf ix q h).imp id fun hq => List.mem_cons.2 (.inl hq)
    · exact .inr (List.mem_cons_of_mem _ h)

/-- The rows of an index over rows are among them. -/
lemma mem_rows_build {rows : List Row} {position : ℕ} {r : Row}
    (h : r ∈ (Index.build rows position).rows) : r ∈ rows := by
  refine (mem_rows_foldl (fun ix q hr => ?_) h).resolve_left fun hr => by cases hr
  split at hr
  · exact mem_rows_add hr
  · exact .inl hr

end Index

namespace Payload

/-- A value is read back from its cell unless it is a timestamp with a signed year. -/
lemma decodeCell_toJson {c : Column} {x y : Scalar} (hx : x.IsFinite) (ht : x.type = c.type) :
    decodeCell c x.toJson = .ok y ↔ x.IsDated ∧ y = x := by
  rw [decodeCell, mapError_eq_ok_iff, Scalar.ofJson, ← ht, Scalar.ofJson?_toJson hx]
  by_cases h : x.IsDated <;> simp [h, eq_comm]

/-- The values of a sound row are read back if all of them are. -/
lemma decodeCells_encodeRow {columns : List Column} {r s : Row} (h : r.IsSound columns) :
    decodeCells columns (encodeRow r) = .ok s ↔ r.IsDated ∧ s = r := by
  obtain ⟨hfit, hfin⟩ := h
  induction columns generalizing r s with
  | nil =>
    obtain rfl : r = [] := by simpa [Table.Fits] using hfit
    simp [decodeCells, Row.IsDated, eq_comm]
  | cons c cs ih =>
    cases r with
    | nil => simp [Table.Fits] at hfit
    | cons x xs =>
      simp only [Table.Fits, List.map_cons, List.cons.injEq] at hfit
      obtain ⟨hx, hxs⟩ := List.forall_mem_cons.1 hfin
      have hcell := fun y => decodeCell_toJson (y := y) hx hfit.1
      have hrest := fun ys => ih (r := xs) (s := ys) hfit.2 hxs
      simp only [encodeRow, List.map_cons, decodeCells, bind_eq_ok_iff] at hrest ⊢
      simp only [hcell, hrest, Row.IsDated, List.forall_mem_cons]
      constructor
      · rintro ⟨y, ⟨hy, rfl⟩, ys, ⟨hys, rfl⟩, hs⟩
        cases hs
        exact ⟨⟨hy, hys⟩, rfl⟩
      · rintro ⟨⟨hy, hys⟩, rfl⟩
        exact ⟨x, ⟨hy, rfl⟩, xs, ⟨hys, rfl⟩, rfl⟩

/-- A sound row decodes to itself if it is dated, and else not at all. -/
lemma decodeRow_encodeRow {columns : List Column} {r s : Row} (h : r.IsSound columns) :
    decodeRow columns (encodeRow r) = .ok s ↔ r.IsDated ∧ s = r := by
  have hlen : (encodeRow r).length = columns.length := by
    rw [encodeRow, List.length_map, ← List.length_map (f := Scalar.type), h.fits, List.length_map]
  rw [decodeRow, if_neg (not_not.2 hlen), decodeCells_encodeRow h]

/-- Sound rows are read back if all of their values are. -/
lemma decodeRows_encodeRow {columns : List Column} {rows : List Row}
    (h : ∀ r ∈ rows, r.IsSound columns) (rows' : List Row) :
    (rows.map encodeRow).mapM (decodeRow columns) = .ok rows' ↔
      (∀ r ∈ rows, r.IsDated) ∧ rows' = rows :=
  mapM_map_eq_ok_iff fun r hr _ => decodeRow_encodeRow (h r hr)

/-! ## Indexes -/

/-- An index over sound rows is read back if all of their values are. -/
lemma decodeIndex_encodeIndex {columns : List Column} {ix : Index}
    (h : ∀ r ∈ ix.rows, r.IsSound columns) (ix' : Index) :
    decodeIndex columns (encodeIndex ix) = .ok ix' ↔ (∀ r ∈ ix.rows, r.IsDated) ∧ ix' = ix := by
  -- each bucket is read back by itself, and the map is rebuilt from its entries
  have hbuckets : ∀ bs, (ix.buckets.map (·.map encodeRow)).entries.mapM
      (fun b => return (b.1, ← b.2.mapM (decodeRow columns))) =
        (.ok bs : Except DataError (List (String × List Row))) ↔
      (∀ b ∈ ix.buckets.entries, ∀ r ∈ b.2, r.IsDated) ∧ bs = ix.buckets.entries := by
    intro bs
    refine mapM_map_eq_ok_iff fun b hb s => ?_
    have hrows := decodeRows_encodeRow fun r hr => h r (Index.mem_rows_iff.2 ⟨b, hb, hr⟩)
    simp only [bind_eq_ok_iff, hrows]
    constructor
    · rintro ⟨rs, ⟨hrs, rfl⟩, hs⟩
      cases hs
      exact ⟨hrs, rfl⟩
    · rintro ⟨hrs, rfl⟩
      exact ⟨_, ⟨hrs, rfl⟩, rfl⟩
  simp only [decodeIndex, encodeIndex, bind_eq_ok_iff, hbuckets]
  constructor
  · rintro ⟨bs, ⟨hbs, rfl⟩, hix⟩
    cases hix
    rw [SortedMap.ofList_entries]
    refine ⟨fun r hr => ?_, rfl⟩
    obtain ⟨b, hb, hr⟩ := Index.mem_rows_iff.1 hr
    exact hbs b hb r hr
  · rintro ⟨hrs, rfl⟩
    refine ⟨_, ⟨fun b hb r hr => hrs r (Index.mem_rows_iff.2 ⟨b, hb, hr⟩), rfl⟩, ?_⟩
    rw [SortedMap.ofList_entries]
    rfl

/-- The rows of all indexes are the rows of each. -/
lemma mem_flatMap_rows_iff {m : SortedMap Index} {r : Row} :
    r ∈ m.values.flatMap Index.rows ↔ ∃ i ∈ m.entries, r ∈ i.2.rows := by
  rw [SortedMap.values, List.flatMap_map, List.mem_flatMap]

/-- Indexes over sound rows are read back if all of their values are. -/
lemma decodeIndexes_encodeIndex {columns : List Column} {p : Payload} {m : SortedMap Index}
    (hp : p.indexes = m.map encodeIndex)
    (h : ∀ r ∈ m.values.flatMap Index.rows, r.IsSound columns) (m' : SortedMap Index) :
    p.decodeIndexes columns = .ok m' ↔
      (∀ r ∈ m.values.flatMap Index.rows, r.IsDated) ∧ m' = m := by
  have hentries : ∀ is, (m.map encodeIndex).entries.mapM
      (fun i => return (i.1, ← decodeIndex columns i.2)) =
        (.ok is : Except DataError (List (String × Index))) ↔
      (∀ i ∈ m.entries, ∀ r ∈ i.2.rows, r.IsDated) ∧ is = m.entries := by
    intro is
    refine mapM_map_eq_ok_iff fun i hi s => ?_
    have hindex := decodeIndex_encodeIndex fun r hr => h r (mem_flatMap_rows_iff.2 ⟨i, hi, hr⟩)
    simp only [bind_eq_ok_iff, hindex]
    constructor
    · rintro ⟨ix, ⟨hix, rfl⟩, hs⟩
      cases hs
      exact ⟨hix, rfl⟩
    · rintro ⟨hix, rfl⟩
      exact ⟨_, ⟨hix, rfl⟩, rfl⟩
  simp only [decodeIndexes, hp, bind_eq_ok_iff, hentries]
  constructor
  · rintro ⟨is, ⟨his, rfl⟩, hm⟩
    cases hm
    rw [SortedMap.ofList_entries]
    refine ⟨fun r hr => ?_, rfl⟩
    obtain ⟨i, hi, hr⟩ := mem_flatMap_rows_iff.1 hr
    exact his i hi r hr
  · rintro ⟨hrs, rfl⟩
    refine ⟨_, ⟨fun i hi r hr => hrs r (mem_flatMap_rows_iff.2 ⟨i, hi, hr⟩), rfl⟩, ?_⟩
    rw [SortedMap.ofList_entries]
    rfl

/-! ## Tables -/

end Payload

/-- No name is repeated if and only if the names are different. -/
lemma firstRepeated?_eq_none_iff {names : List String} :
    firstRepeated? names = none ↔ names.Nodup := by
  have hgo : ∀ (ns seen : List String), firstRepeated?.go seen ns = none ↔
      ns.Nodup ∧ ∀ n ∈ ns, n ∉ seen := by
    intro ns
    induction ns with
    | nil => simp [firstRepeated?.go]
    | cons n ns ih =>
      intro seen
      rw [firstRepeated?.go]
      split
      · rename_i hn
        simp [hn]
      · rename_i hn
        rw [ih, List.nodup_cons]
        simp only [List.mem_cons, not_or, forall_eq_or_imp]
        constructor
        · rintro ⟨hns, hseen⟩
          exact ⟨⟨fun hmem => (hseen n hmem).1 rfl, hns⟩, hn, fun m hm => (hseen m hm).2⟩
        · rintro ⟨⟨hmem, hns⟩, -, hseen⟩
          exact ⟨hns, fun m hm => ⟨fun he => hmem (he ▸ hm), hseen m hm⟩⟩
  simpa [firstRepeated?] using hgo names []

namespace Payload

/-- The type of a column is found by its name. -/
lemma get?_types_ofColumns {columns : List Column} (h : (columns.map (·.name)).Nodup) {c : Column}
    (hc : c ∈ columns) :
    (SortedMap.ofList (columns.map fun c => (c.name, c.type))).get? c.name = some c.type :=
  SortedMap.get?_ofList_of_nodup (by simpa [Function.comp_def] using h) (List.mem_map.2 ⟨c, hc, rfl⟩)

/-- Columns with different names are read back. -/
lemma schema_ofColumns {columns : List Column} (h : (columns.map (·.name)).Nodup) {p : Payload}
    (hc : p.columns = columns.map (·.name))
    (ht : p.types = .ofList (columns.map fun c => (c.name, c.type))) : p.schema = .ok columns := by
  rw [schema, hc, ht]
  refine mapM_map_eq_ok fun c hmem => ?_
  rw [get?_types_ofColumns h hmem]

/-- A sound table decodes to itself if it is dated, and else not at all. -/
theorem toTable_ofTable {t t' : Table} (h : t.IsSound) :
    (ofTable t).toTable t.name = .ok t' ↔ t.IsDated ∧ t' = t := by
  have hschema : (ofTable t).schema = .ok t.columns :=
    schema_ofColumns (firstRepeated?_eq_none_iff.1 h.distinct) rfl rfl
  have hcreate : Table.create t.name t.columns = .ok t.cleared := by
    have hdistinct : firstRepeated? (t.columns.map (·.name)) = none := h.distinct
    rw [Table.create, hdistinct]
    rfl
  have hrows := decodeRows_encodeRow fun r hr => h.row hr
  have hindexes := decodeIndexes_encodeIndex (p := ofTable t) rfl
    fun r hr => h.rows r (List.mem_append_right _ hr)
  have hdated : t.IsDated ↔ (∀ r ∈ t.rows, r.IsDated) ∧
      ∀ r ∈ t.indexes.values.flatMap Index.rows, r.IsDated := List.forall_mem_append
  simp only [toTable, hschema, hcreate, bind_eq_ok_iff, mapError_eq_ok_iff, Except.ok.injEq,
    exists_eq_left', decodeRows, hindexes, hdated]
  constructor
  · rintro ⟨rs, hrs, is, ⟨his, rfl⟩, ht⟩
    obtain ⟨hdrs, rfl⟩ := (hrows rs).1 hrs
    cases ht
    exact ⟨⟨hdrs, his⟩, rfl⟩
  · rintro ⟨⟨hrs, his⟩, rfl⟩
    exact ⟨_, (hrows _).2 ⟨hrs, rfl⟩, _, ⟨his, rfl⟩, rfl⟩

/-- The payload of a table is encoded. -/
lemma isEncoded_ofTable (t : Table) : (ofTable t).IsEncoded where
  rows := areEncoded_encodeRow t.rows
  indexes := by
    intro i hi b hb
    obtain ⟨j, -, rfl⟩ := List.mem_map.1 hi
    obtain ⟨c, -, rfl⟩ := List.mem_map.1 hb
    exact areEncoded_encodeRow c.2

/-- The payload of rows is encoded. -/
lemma isEncoded_ofRows (t : Table) (rows : List Row) : (ofRows t rows).IsEncoded where
  rows := areEncoded_encodeRow rows
  indexes := by
    intro i hi
    cases hi

/-- The payload of an index is encoded. -/
lemma isEncoded_ofIndex (t : Table) (name : String) (ix : Index) : (ofIndex t name ix).IsEncoded where
  rows := areEncoded_encodeRow []
  indexes := by
    intro i hi b hb
    obtain rfl : i = (name, encodeIndex ix) := List.mem_singleton.1 hi
    obtain ⟨c, -, rfl⟩ := List.mem_map.1 hb
    exact areEncoded_encodeRow c.2

end Payload

/-! ## What decodes is sound -/

namespace Payload

/-- Every cell is a JSON value. -/
def IsValid (p : Payload) : Prop :=
  (∀ r ∈ p.rows, ∀ v ∈ r, v.WellFormed) ∧
    ∀ i ∈ p.indexes.entries, ∀ b ∈ i.2.entries, ∀ r ∈ b.2, ∀ v ∈ r, v.WellFormed

/-- Values that are decoded from well-formed cells are finite. -/
lemma isFinite_of_decodeCells {columns : List Column} {cells : List Json} {r : Row}
    (hv : ∀ v ∈ cells, v.WellFormed) (h : decodeCells columns cells = .ok r) : r.IsFinite := by
  induction columns generalizing cells r with
  | nil =>
    cases h
    exact fun x hx => by cases hx
  | cons c cs ih =>
    cases cells with
    | nil =>
      cases h
      exact fun x hx => by cases hx
    | cons v vs =>
      obtain ⟨hv, hvs⟩ := List.forall_mem_cons.1 hv
      simp only [decodeCells, bind_eq_ok_iff] at h
      obtain ⟨x, hx, xs, hxs, hr⟩ := h
      cases hr
      refine List.forall_mem_cons.2 ⟨?_, ih hvs hxs⟩
      simp only [decodeCell, mapError_eq_ok_iff, Scalar.ofJson] at hx
      split at hx
      · rename_i y hy
        cases hx
        exact Scalar.isFinite_of_ofJson? hv hy
      · cases hx

/-- A row that is decoded from well-formed cells is sound. -/
lemma isSound_of_decodeRow {columns : List Column} {cells : List Json} {r : Row}
    (hv : ∀ v ∈ cells, v.WellFormed) (h : decodeRow columns cells = .ok r) : r.IsSound columns := by
  refine ⟨fits_decodeRow h, ?_⟩
  simp only [decodeRow] at h
  split at h
  · cases h
  · exact isFinite_of_decodeCells hv h

/-- Rows that are decoded from well-formed cells are sound. -/
lemma isSound_of_decodeRows {columns : List Column} {cells : List (List Json)} {rows : List Row}
    (hv : ∀ r ∈ cells, ∀ v ∈ r, v.WellFormed) (h : cells.mapM (decodeRow columns) = .ok rows) :
    ∀ r ∈ rows, r.IsSound columns := by
  intro r hr
  obtain ⟨c, hc, hdecode⟩ := (exists_of_mapM_ok h).2 r hr
  exact isSound_of_decodeRow (hv c hc) hdecode

/-- The rows of an index that is decoded from well-formed cells are sound. -/
lemma isSound_of_decodeIndex {columns : List Column} {buckets : SortedMap (List (List Json))}
    {ix : Index} (hv : ∀ b ∈ buckets.entries, ∀ r ∈ b.2, ∀ v ∈ r, v.WellFormed)
    (h : decodeIndex columns buckets = .ok ix) : ∀ r ∈ ix.rows, r.IsSound columns := by
  simp only [decodeIndex, bind_eq_ok_iff] at h
  obtain ⟨bs, hbs, hix⟩ := h
  cases hix
  intro r hr
  obtain ⟨b, hb, hr⟩ := Index.mem_rows_iff.1 hr
  obtain ⟨c, hc, hdecode⟩ := (exists_of_mapM_ok hbs).2 b (SortedMap.mem_of_mem_sortEntries hb)
  obtain ⟨rows, hrows, hb⟩ := bind_eq_ok_iff.1 hdecode
  cases hb
  exact isSound_of_decodeRows (hv c hc) hrows r hr

/-- The rows of the indexes of a valid payload are sound. -/
lemma isSound_of_decodeIndexes {p : Payload} (hp : p.IsValid) {columns : List Column}
    {m : SortedMap Index} (h : p.decodeIndexes columns = .ok m) :
    ∀ r ∈ m.values.flatMap Index.rows, r.IsSound columns := by
  obtain ⟨is, his, hm⟩ := bind_eq_ok_iff.1 h
  cases hm
  intro r hr
  obtain ⟨i, hi, hr⟩ := mem_flatMap_rows_iff.1 hr
  obtain ⟨j, hj, hdecode⟩ := (exists_of_mapM_ok his).2 i (SortedMap.mem_of_mem_sortEntries hi)
  obtain ⟨ix, hix, hi⟩ := bind_eq_ok_iff.1 hdecode
  cases hi
  exact isSound_of_decodeIndex (hp.2 j hj) hix r hr

/-- The table of a payload of JSON values is sound. -/
theorem isSound_of_toTable {p : Payload} (hp : p.IsValid) {name : String} {t : Table}
    (h : p.toTable name = .ok t) : t.name = name ∧ t.IsSound := by
  simp only [toTable, bind_eq_ok_iff, mapError_eq_ok_iff] at h
  obtain ⟨columns, -, u, hu, rows, hrows, indexes, hindexes, ht⟩ := h
  cases ht
  rw [Table.create] at hu
  split at hu
  · cases hu
  · rename_i hdistinct
    cases hu
    refine ⟨rfl, hdistinct, fun r hr => ?_⟩
    rcases List.mem_append.1 hr with hr | hr
    · exact isSound_of_decodeRows hp.1 hrows r hr
    · exact isSound_of_decodeIndexes hp hindexes r hr

end Payload

/-! ## Additions to tables -/

namespace Storage

/-- What is in a table is added to another if it is sound and dated, and else not. -/
theorem extend_ofTable {t u t' : Table} (h : ∀ r ∈ u.allRows, r.IsSound t.columns) :
    extend t (.ofTable u) = .ok t' ↔ u.IsDated ∧
      t' = { t with rows := t.rows ++ u.rows, indexes := t.indexes.overlay u.indexes } := by
  have hrows : ∀ rs, (Payload.ofTable u).decodeRows t.columns = .ok rs ↔
      (∀ r ∈ u.rows, r.IsDated) ∧ rs = u.rows :=
    Payload.decodeRows_encodeRow fun r hr => h r (List.mem_append_left _ hr)
  have hindexes := Payload.decodeIndexes_encodeIndex (p := Payload.ofTable u) rfl
    fun r hr => h r (List.mem_append_right _ hr)
  have hdated : u.IsDated ↔ (∀ r ∈ u.rows, r.IsDated) ∧
      ∀ r ∈ u.indexes.values.flatMap Index.rows, r.IsDated := List.forall_mem_append
  simp only [extend, bind_eq_ok_iff, hrows, hindexes, hdated]
  constructor
  · rintro ⟨rs, ⟨hrs, rfl⟩, is, ⟨his, rfl⟩, ht⟩
    cases ht
    exact ⟨⟨hrs, his⟩, rfl⟩
  · rintro ⟨⟨hrs, his⟩, rfl⟩
    exact ⟨_, ⟨hrs, rfl⟩, _, ⟨his, rfl⟩, rfl⟩

/-- Sound rows are added to a table if they are dated, and else not. -/
theorem extend_ofRows {t t' : Table} {rows : List Row} (h : ∀ r ∈ rows, r.IsSound t.columns) :
    extend t (.ofRows t rows) = .ok t' ↔
      (∀ r ∈ rows, r.IsDated) ∧ t' = { t with rows := t.rows ++ rows } := by
  have hall : Table.allRows ⟨t.name, t.columns, rows, .empty⟩ = rows := List.append_nil rows
  have hextend : extend t (.ofTable ⟨t.name, t.columns, rows, .empty⟩) = .ok t' ↔ _ :=
    extend_ofTable (by rwa [hall])
  rw [Table.IsDated, hall] at hextend
  exact hextend

/-- An index over sound rows is added to a table if they are dated, and else not. -/
theorem extend_ofIndex {t t' : Table} {name : String} {ix : Index}
    (h : ∀ r ∈ ix.rows, r.IsSound t.columns) :
    extend t (.ofIndex t name ix) = .ok t' ↔
      (∀ r ∈ ix.rows, r.IsDated) ∧ t' = { t with indexes := t.indexes.insert name ix } := by
  have hall : Table.allRows ⟨t.name, t.columns, [], .insert .empty name ix⟩ = ix.rows :=
    List.append_nil ix.rows
  have hextend : extend t (.ofTable ⟨t.name, t.columns, [], .insert .empty name ix⟩) = .ok t' ↔ _ :=
    extend_ofTable (by rwa [hall])
  rw [Table.IsDated, hall] at hextend
  rw [← List.append_nil t.rows]
  exact hextend

end Storage

end ProvenTables
