import ProvenTables.Proofs.Storage.Payload
import ProvenTables.Proofs.Storage.Reading

/-!
# Replaying histories

A history reads back from its JSON, and the history with one more chunk replays to the table with what
the payload of the chunk adds.
-/

namespace ProvenTables

namespace History

/-! ## JSON -/

/-- The record of an entry is canonical. -/
lemma isCanonical_entryToJson (e : HistoryEntry) : Json.IsCanonical 1 (entryToJson e) := by
  have hsorted : ["chunk_hash", "chunk_id"].Pairwise (· < ·) := by decide
  refine .record hsorted rfl fun f hf => ?_
  simp only [List.mem_cons, List.not_mem_nil, or_false] at hf
  rcases hf with rfl | rfl
  · exact .str _
  · exact .str _

/-- The record of the versions of a chunk is canonical. -/
lemma isCanonical_recordToJson (r : ChunkRecord) : Json.IsCanonical 2 (recordToJson r) := by
  have hsorted : ["chunk_id", "versions"].Pairwise (· < ·) := by decide
  refine .record hsorted rfl fun f hf => ?_
  simp only [List.mem_cons, List.not_mem_nil, or_false] at hf
  rcases hf with rfl | rfl
  · exact .str _
  · exact .strs _

/-- The record of a history is canonical. -/
lemma isCanonical_toJson (h : History) : Json.IsCanonical 4 h.toJson := by
  have hsorted : ["chunk_history", "default_sequence", "latest_chunk"].Pairwise (· < ·) := by decide
  refine .record hsorted rfl fun f hf => ?_
  simp only [List.mem_cons, List.not_mem_nil, or_false] at hf
  rcases hf with rfl | rfl | rfl
  · refine .arr fun v hv => ?_
    obtain ⟨r, -, rfl⟩ := List.mem_map.1 hv
    exact isCanonical_recordToJson r
  · refine .arr fun v hv => ?_
    obtain ⟨e, -, rfl⟩ := List.mem_map.1 hv
    exact (isCanonical_entryToJson e).mono (by decide)
  · cases h.latest with
    | none => exact .null
    | some a => exact .str a.text

/-- An entry is read back from its record. -/
lemma entryOfJson?_entryToJson (e : HistoryEntry) : entryOfJson? (entryToJson e) = some e := by
  simp [entryOfJson?, entryToJson, Json.record?, Json.recordFields?, Json.str?]

/-- The versions of a chunk are read back from their record. -/
lemma recordOfJson?_recordToJson (r : ChunkRecord) : recordOfJson? (recordToJson r) = some r := by
  simp [recordOfJson?, recordToJson, Json.record?, Json.recordFields?, Json.str?, Json.strs?_strs,
    Function.comp_def]

/-- The JSON of the latest chunk. -/
def latestToJson : Option Address → Json
  | some a => .str a.text
  | none => .null

/-- The record of a history in the order of its fields. -/
lemma toJson_eq (h : History) : h.toJson = .obj [("chunk_history", .arr (h.records.map recordToJson)),
    ("default_sequence", .arr (h.entries.map entryToJson)),
    ("latest_chunk", latestToJson h.latest)] := by
  cases hl : h.latest <;> simp [toJson, latestToJson, hl]

/-- A history reads back from its JSON. -/
theorem ofJson?_toJson (h : History) : ofJson? h.toJson = some h := by
  have hentries : (h.entries.map entryToJson).mapM entryOfJson? = some h.entries :=
    mapM_map_eq_some fun e _ => entryOfJson?_entryToJson e
  have hrecords : (h.records.map recordToJson).mapM recordOfJson? = some h.records :=
    mapM_map_eq_some fun r _ => recordOfJson?_recordToJson r
  have hlatest : latestOfJson? (latestToJson h.latest) = some h.latest := by
    cases h.latest <;> rfl
  have hfields : h.toJson.record? ["default_sequence", "chunk_history", "latest_chunk"] =
      some [some (.arr (h.entries.map entryToJson)), some (.arr (h.records.map recordToJson)),
        some (latestToJson h.latest)] := by
    simp [toJson_eq, Json.record?, Json.recordFields?]
  rw [ofJson?, hfields]
  simp only [Option.bind_eq_bind, Option.bind_some, Option.getD_some, Json.arr?, hentries, hrecords,
    hlatest]
  rfl

end History

namespace Storage

open Procedure (reading? reading?_bind_ok reading?_bind_eq_ok_iff)

variable {objects : Objects}

/-! ## Stored values -/

/-- The canonical text of the value is under its address. -/
def Stored (objects : Objects) (v : Json) : Prop :=
  objects.get? (Address.ofJson v).text = some v.canonical

/-- A stored document is still stored when objects are added. -/
lemma Stored.grows {o o' : Objects} {v : Json} (h : Stored o v) (hg : o.Grows o') : Stored o' v :=
  hg _ _ h

/-- A document is read from the canonical text that is kept at an address. -/
lemma reading?_get_of_text {a : Address} {v : Json} {d : ℕ} (hv : v.IsCanonical d)
    (hd : d ≤ Json.maxDepth) (h : objects.get? a.text = some v.canonical) :
    (get a).reading? objects = some (.ok v) := by
  have hfetch : (Procedure.request (.fetch a)).reading? objects = some (.ok v.canonical) := by
    simp only [Procedure.request, reading?]
    rw [h]
  refine (reading?_bind_ok hfetch).trans ?_
  rw [hv.parse? hd]
  rfl

/-- A stored document is read at its own address. -/
lemma reading?_get {v : Json} {d : ℕ} (hv : v.IsCanonical d) (hd : d ≤ Json.maxDepth)
    (h : Stored objects v) : (get (Address.ofJson v)).reading? objects = some (.ok v) :=
  reading?_get_of_text hv hd h

/-- No digest is the sentinel. -/
lemma isSentinel_ofText (content : String) : (Address.ofText content).isSentinel = false := by
  -- the sentinel is too short for a digest
  have hdigest := Address.isDigest_ofText content
  refine beq_eq_false_iff_ne.2 fun h => ?_
  rw [h] at hdigest
  exact absurd hdigest (by decide)

/-- A history is read back from under any address but the sentinel. -/
lemma reading?_loadHistory_of_text {a : Address} {h : History} (ha : a.isSentinel = false)
    (hh : objects.get? a.text = some h.toJson.canonical) :
    (loadHistory a).reading? objects = some (.ok h) := by
  simp only [loadHistory, ha, Bool.false_eq_true, ↓reduceIte]
  rw [reading?_bind_ok (reading?_get_of_text h.isCanonical_toJson (by decide) hh), History.ofJson?_toJson]
  rfl

/-- A stored history is loaded. -/
lemma reading?_loadHistory {h : History} (hh : Stored objects h.toJson) :
    (loadHistory (Address.ofJson h.toJson)).reading? objects = some (.ok h) :=
  reading?_loadHistory_of_text (isSentinel_ofText _) hh

/-! ## Replaying -/

/-- A replay of entries goes on from what the first of them give. -/
lemma replayEntries_append (table : String) (t : Option Table) (es fs : List HistoryEntry) :
    replayEntries table t (es ++ fs) =
      replayEntries table t es >>= fun t => replayEntries table t fs := by
  induction es generalizing t with
  | nil => simp [replayEntries]
  | cons e es ih => simp only [List.cons_append, replayEntries, ih, bind_assoc]

/-- The table with what a payload adds, or the table of the first payload. -/
def add (table : String) (p : Payload) : Option Table → Except DataError Table
  | none => p.toTable table
  | some t => extend t p

/-- A table is replayed if its history is read and its chunks make a table. -/
lemma reading?_replay_eq_ok_iff {table : String} {a : Address} {t : Table} :
    (replay table a).reading? objects = some (.ok t) ↔
      ∃ h, (loadHistory a).reading? objects = some (.ok h) ∧
        (replayEntries table none h.entries).reading? objects = some (.ok (some t)) := by
  simp only [replay, reading?_bind_eq_ok_iff]
  constructor
  · rintro ⟨h, hh, o, ho, ht⟩
    cases o with
    | none => cases ht
    | some u =>
      cases ht
      exact ⟨h, hh, ho⟩
  · rintro ⟨h, hh, ht⟩
    exact ⟨h, hh, some t, ht, rfl⟩

/-- What the chunk of one payload adds. -/
lemma replayChunk_single {table : String} {p : Payload} (hp : p.IsEncoded) (t : Option Table) :
    Chunk.ofJson (Chunk.single table p).toJson >>= replayChunk table t = some <$> add table p t := by
  rw [Chunk.ofJson_toJson_single hp]
  have hpayload : (Chunk.single table p).get? table = some p := by simp [Chunk.single]
  change replayChunk table t (Chunk.single table p) = _
  unfold replayChunk
  rw [hpayload]
  cases t <;> rfl

/-- A history with one more chunk replays to the table with what the chunk adds. -/
theorem reading?_replay_record {table digest : String} {p : Payload} {h : History}
    {t : Option Table} (hp : p.IsEncoded)
    (ht : (replayEntries table none h.entries).reading? objects = some (.ok t))
    (hc : Stored objects (Chunk.single table p).toJson)
    (hh : Stored objects (h.record (Address.ofJson (Chunk.single table p).toJson) digest).toJson) :
    (replay table (Address.ofJson
        (h.record (Address.ofJson (Chunk.single table p).toJson) digest).toJson)).reading? objects =
      some ((add table p t).mapError .data) := by
  have hget := reading?_get (Chunk.isCanonical_toJson_single hp) (by decide) hc
  -- the new entry is the last one, so the entries before it replay to the table `t`
  rw [replay, reading?_bind_ok (reading?_loadHistory hh), History.record, replayEntries_append,
    bind_assoc, reading?_bind_ok ht, replayEntries, bind_assoc, reading?_bind_ok hget, bind_assoc,
    replayChunk_single hp]
  cases add table p t <;> rfl

end Storage

end ProvenTables
