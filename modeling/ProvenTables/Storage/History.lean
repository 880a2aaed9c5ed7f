import ProvenTables.Storage.Payload
import ProvenTables.Storage.Procedure

/-!
# Histories

The history of a table is the list of the chunks that were appended to it, itself an object of the
store. Appending writes a new object and leaves the old one alone; replaying the chunks in order
gives the table.
-/

namespace ProvenTables

/-- One appended chunk: its address and the digest of its payload. -/
structure HistoryEntry where
  chunk : Address
  payloadDigest : String
  deriving DecidableEq

/-- The appearances of one chunk. -/
structure ChunkRecord where
  chunk : Address
  versions : List Address
  deriving DecidableEq

/-- The chunks that a table has been made of, from the first to the last. -/
structure History where
  entries : List HistoryEntry
  records : List ChunkRecord
  latest : Option Address
  deriving DecidableEq

namespace History

/-- The history of a table without chunks. -/
def empty : History := ⟨[], [], none⟩

/-- Without other information a history is empty. -/
instance : Inhabited History := ⟨empty⟩

/-- The records with one more version of a chunk. -/
def addVersion (chunk : Address) : List ChunkRecord → List ChunkRecord
  | [] => [⟨chunk, [chunk]⟩]
  | r :: rs =>
    if r.chunk = chunk then { r with versions := r.versions ++ [chunk] } :: rs
    else r :: addVersion chunk rs

/-- The history with one more chunk at the end. -/
def record (h : History) (chunk : Address) (payloadDigest : String) : History where
  entries := h.entries ++ [⟨chunk, payloadDigest⟩]
  records := addVersion chunk h.records
  latest := some chunk

/-! ## JSON -/

/-- The record of an entry of a history. -/
def entryToJson (e : HistoryEntry) : Json :=
  .obj [("chunk_hash", .str e.payloadDigest), ("chunk_id", .str e.chunk.text)]

/-- The record of the versions of a chunk. -/
def recordToJson (r : ChunkRecord) : Json :=
  .obj [("chunk_id", .str r.chunk.text), ("versions", .strs (r.versions.map (·.text)))]

/-- The record of a history. -/
def toJson (h : History) : Json :=
  .obj [("chunk_history", .arr (h.records.map recordToJson)),
    ("default_sequence", .arr (h.entries.map entryToJson)),
    ("latest_chunk", match h.latest with
      | some a => .str a.text
      | none => .null)]

/-- The entry of a history that a document is, if it is one. -/
def entryOfJson? (v : Json) : Option HistoryEntry := do
  match ← v.record? ["chunk_id", "chunk_hash"] with
  | [some chunk, some digest] => return ⟨⟨← chunk.str?⟩, ← digest.str?⟩
  | _ => none

/-- The versions of a chunk that a document is, if it is that. -/
def recordOfJson? (v : Json) : Option ChunkRecord := do
  match ← v.record? ["chunk_id", "versions"] with
  | [some chunk, some versions] => return ⟨⟨← chunk.str?⟩, (← versions.strs?).map Address.mk⟩
  | _ => none

/-- The address of the last chunk, or null for none. -/
def latestOfJson? : Json → Option (Option Address)
  | .null => some none
  | v => v.str?.map fun s => some ⟨s⟩

/-- The history that a JSON value stands for; every field may be missing. -/
def ofJson? (v : Json) : Option History := do
  match ← v.record? ["default_sequence", "chunk_history", "latest_chunk"] with
  | [entries, records, latest] =>
    let entries ← (entries.getD (.arr [])).arr?
    let records ← (records.getD (.arr [])).arr?
    return ⟨← entries.mapM entryOfJson?, ← records.mapM recordOfJson?,
      ← latestOfJson? (latest.getD .null)⟩
  | _ => none

end History

namespace Storage

/-! ## Objects -/

/-- Stores a value and gives its address. -/
def put (v : Json) : Procedure StorageError Address := do
  let address := Address.ofJson v
  Procedure.request (.keep address v.canonical)
  return address

/-- The document that is kept at an address. -/
def get (address : Address) : Procedure StorageError Json := do
  let content ← Procedure.request (.fetch address)
  match Json.parse? content with
  | some v => return v
  | none => .fail (.data .malformed)

/-! ## Tables -/

/-- Reads the history under an address; the sentinel has none. -/
def loadHistory (address : Address) : Procedure StorageError History := do
  if address.isSentinel then return .empty
  else
    let v ← get address
    match History.ofJson? v with
    | some h => return h
    | none => .fail (.data .malformed)

/-- The addresses written by a change: the new chunk and the new history. -/
structure Commit where
  chunk : Address
  history : Address
  deriving DecidableEq

/-- Writes a payload as a chunk and the history with it appended. -/
def append (table : String) (payload : Payload) (previous : Address) :
    Procedure StorageError (Commit × History) := do
  let h ← loadHistory previous
  let chunk ← put (Chunk.single table payload).toJson
  let h := h.record chunk (Address.ofJson payload.toJson).text
  let history ← put h.toJson
  return (⟨chunk, history⟩, h)

/-- The table with what a later payload adds: rows at the end, and indexes in place of those of the
same names. -/
def extend (t : Table) (p : Payload) : Except DataError Table := do
  let rows ← p.decodeRows t.columns
  let indexes ← p.decodeIndexes t.columns
  return { t with rows := t.rows ++ rows, indexes := t.indexes.overlay indexes }

/-- What has been replayed of a table, with one more chunk. -/
def replayChunk (table : String) (t : Option Table) (c : Chunk) :
    Except DataError (Option Table) :=
  match c.get? table, t with
  | none, t => .ok t
  | some p, none => some <$> p.toTable table
  | some p, some t => some <$> extend t p

/-- Replays the chunks of entries on top of what has been replayed. -/
def replayEntries (table : String) :
    Option Table → List HistoryEntry → Procedure StorageError (Option Table)
  | t, [] => return t
  | t, e :: es => do
    let v ← get e.chunk
    let t ← (Procedure.ofExcept (Chunk.ofJson v >>= replayChunk table t)).mapError .data
    replayEntries table t es

/-- The table whose history is under an address. -/
def replay (table : String) (address : Address) : Procedure StorageError Table := do
  let h ← loadHistory address
  match ← replayEntries table none h.entries with
  | some t => return t
  | none => .fail (.unknownTable table)

/-- Appends a payload to the history under an address. -/
def commit (table : String) (previous : Address) (payload : Payload) :
    Procedure StorageError Commit := do
  let (c, _) ← append table payload previous
  return c

end Storage

end ProvenTables
