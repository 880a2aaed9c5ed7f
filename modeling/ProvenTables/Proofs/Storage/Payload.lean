import ProvenTables.Proofs.Scalar
import ProvenTables.Storage.Payload

/-!
# Reading back payloads

A payload of encoded cells and the chunk it is stored in read back from their JSON.
-/

namespace ProvenTables

namespace Json

/-- A map is read back if its values are. -/
lemma map?_ofMap {α : Type} {f : α → Json} {g : Json → Option α} {m : SortedMap α}
    (h : ∀ e ∈ m.entries, g (f e.2) = some e.2) : map? g (ofMap f m) = some m := by
  have hread : (m.map f).entries.mapM (fun p => (g p.2).map fun a => (p.1, a)) = some m.entries := by
    refine mapM_map_eq_some fun e he => ?_
    simp [h e he]
  rw [ofMap, map?, hread, Option.map_some, SortedMap.ofList_entries]

/-- A list of texts is read back. -/
lemma strs?_strs (ss : List String) : (strs ss).strs? = some ss := by
  rw [strs, strs?, arr?, Option.bind_some]
  exact mapM_map_eq_some fun s _ => rfl

end Json

namespace Payload

/-! ## JSON -/

/-- Every cell is the JSON value of a scalar. -/
def AreEncoded (rows : List (List Json)) : Prop := ∀ r ∈ rows, ∀ v ∈ r, ∃ x : Scalar, v = x.toJson

/-- Every cell of the rows and of the indexes is the JSON value of a scalar. -/
structure IsEncoded (p : Payload) : Prop where
  rows : AreEncoded p.rows
  indexes : ∀ i ∈ p.indexes.entries, ∀ b ∈ i.2.entries, AreEncoded b.2

/-- The documents of rows are encoded cells. -/
lemma areEncoded_encodeRow (rows : List Row) : AreEncoded (rows.map encodeRow) := by
  intro cells hcells v hv
  obtain ⟨r, -, rfl⟩ := List.mem_map.1 hcells
  obtain ⟨x, -, rfl⟩ := List.mem_map.1 hv
  exact ⟨x, rfl⟩

/-- The list of encoded rows is canonical. -/
lemma isCanonical_jsonOfRows {rows : List (List Json)} (h : AreEncoded rows) :
    Json.IsCanonical 3 (jsonOfRows rows) := by
  refine .arr fun v hv => ?_
  obtain ⟨r, hr, rfl⟩ := List.mem_map.1 hv
  refine .arr fun v hv => ?_
  obtain ⟨x, rfl⟩ := h r hr v hv
  exact x.isCanonical_toJson

/-- Encoded rows are read back. -/
lemma rowsOfJson?_jsonOfRows {rows : List (List Json)} (h : AreEncoded rows) :
    rowsOfJson? (jsonOfRows rows) = some rows := by
  rw [jsonOfRows, rowsOfJson?, Json.arr?, Option.bind_some]
  refine mapM_map_eq_some fun r hr => ?_
  have hcells : r.map Json.normalize = r := by
    refine (List.map_congr_left fun v hv => ?_).trans (List.map_id r)
    obtain ⟨x, rfl⟩ := h r hr v hv
    exact x.isCanonical_toJson.normal
  simp [Json.arr?, hcells]

/-- The record of an encoded payload is canonical. -/
lemma isCanonical_toJson {p : Payload} (h : p.IsEncoded) : Json.IsCanonical 6 p.toJson := by
  have hsorted : ["column_types", "columns", "indexes", "rows"].Pairwise (· < ·) := by decide
  refine .record hsorted rfl fun f hf => ?_
  simp only [List.mem_cons, List.not_mem_nil, or_false] at hf
  rcases hf with rfl | rfl | rfl | rfl
  · exact .ofMap fun e _ => .str e.2.name
  · exact (Json.IsCanonical.strs p.columns).mono (by decide : 1 ≤ 5)
  · exact .ofMap fun i hi => .ofMap fun b hb => isCanonical_jsonOfRows (h.indexes i hi b hb)
  · exact (isCanonical_jsonOfRows h.rows).mono (by decide)

/-- A payload of encoded cells reads back from its JSON. -/
theorem ofJson_toJson {p : Payload} (h : p.IsEncoded) : ofJson p.toJson = .ok p := by
  have htypes : (p.types.map fun t => Json.str t.name).entries.mapM
      (fun f => return (f.1, ← typeOfJson f.2)) = (.ok p.types.entries : Except DataError _) := by
    refine mapM_map_eq_ok fun e _ => ?_
    simp [typeOfJson, Json.str?, ColumnType.ofName, ColumnType.ofName?_name, Except.mapError]
  have hindexes : (Json.ofMap (Json.ofMap jsonOfRows) p.indexes).map? (Json.map? rowsOfJson?) =
      some p.indexes :=
    Json.map?_ofMap fun i hi => Json.map?_ofMap fun b hb =>
      rowsOfJson?_jsonOfRows (h.indexes i hi b hb)
  have hfields : p.toJson.recordFields? ["columns", "column_types", "rows", "indexes"] =
      some [("column_types", .ofMap (fun t => .str t.name) p.types), ("columns", .strs p.columns),
        ("indexes", .ofMap (.ofMap jsonOfRows) p.indexes), ("rows", jsonOfRows p.rows)] := by
    simp [toJson, Json.recordFields?]
  have hadd : ∀ d : Draft, d.add ("column_types", .ofMap (fun t => .str t.name) p.types) =
      .ok { d with types := some p.types } := by
    intro d
    refine bind_eq_ok_iff.2 ⟨p.types.entries, htypes, ?_⟩
    rw [SortedMap.ofList_entries]
    rfl
  rw [ofJson, hfields]
  simp only [require, List.foldlM_cons, List.foldlM_nil, bind, Except.bind, hadd]
  simp only [Draft.add, require, hindexes, Json.strs?_strs, rowsOfJson?_jsonOfRows h.rows, bind,
    Except.bind, pure, Except.pure]
  simp

end Payload

namespace Chunk

/-- The record of a chunk with one encoded payload is canonical. -/
lemma isCanonical_toJson_single {table : String} {p : Payload} (h : p.IsEncoded) :
    Json.IsCanonical 7 (single table p).toJson := by
  refine .ofMap fun e he => ?_
  obtain rfl : e = (table, p) := List.mem_singleton.1 he
  exact Payload.isCanonical_toJson h

/-- The chunk of one table reads back from its JSON. -/
theorem ofJson_toJson_single {table : String} {p : Payload} (h : p.IsEncoded) :
    ofJson (single table p).toJson = .ok (single table p) := by
  have hread : ((single table p).map Payload.toJson).entries.mapM
      (fun f => return (f.1, ← Payload.ofJson f.2)) =
        (.ok (single table p).entries : Except DataError (List (String × Payload))) := by
    refine mapM_map_eq_ok fun e he => ?_
    obtain rfl : e = (table, p) := List.mem_singleton.1 he
    rw [Payload.ofJson_toJson h]
    rfl
  refine bind_eq_ok_iff.2 ⟨_, hread, ?_⟩
  rw [SortedMap.ofList_entries]
  rfl

end Chunk

end ProvenTables
