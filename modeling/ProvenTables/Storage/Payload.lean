import ProvenTables.Json.Record
import ProvenTables.Storage.Error

/-!
# Payloads

The part of a chunk that belongs to one table: columns and types, encoded rows and encoded indexes.
A payload may come from anywhere, so its parts need not fit together; `toTable` says when they do.
-/

namespace ProvenTables

/-- What a chunk says of one table, with its cells as documents. -/
structure Payload where
  columns : List String
  types : SortedMap ColumnType
  rows : List (List Json)
  indexes : SortedMap (SortedMap (List (List Json)))

namespace Payload

/-! ## Writing -/

/-- The documents of the values of a row. -/
def encodeRow (r : Row) : List Json := r.map Scalar.toJson

/-- The documents of the rows of every bucket. -/
def encodeIndex (ix : Index) : SortedMap (List (List Json)) := ix.buckets.map (·.map encodeRow)

/-- The columns of a table without rows and indexes. -/
def ofColumns (columns : List Column) : Payload where
  columns := columns.map (·.name)
  types := .ofList (columns.map fun c => (c.name, c.type))
  rows := []
  indexes := .empty

/-- The payload with all that a table has. -/
def ofTable (t : Table) : Payload :=
  { ofColumns t.columns with
    rows := t.rows.map encodeRow
    indexes := t.indexes.map encodeIndex }

/-- The columns of a table and other rows. -/
def ofRows (t : Table) (rows : List Row) : Payload :=
  { ofColumns t.columns with rows := rows.map encodeRow }

/-- The columns of a table and one index. -/
def ofIndex (t : Table) (name : String) (ix : Index) : Payload :=
  { ofColumns t.columns with indexes := SortedMap.empty.insert name (encodeIndex ix) }

/-- The list of the lists of cells. -/
def jsonOfRows (rows : List (List Json)) : Json := .arr (rows.map .arr)

/-- The record of a payload. -/
def toJson (p : Payload) : Json :=
  .obj [("column_types", .ofMap (fun t => .str t.name) p.types), ("columns", .strs p.columns),
    ("indexes", .ofMap (.ofMap jsonOfRows) p.indexes), ("rows", jsonOfRows p.rows)]

/-! ## Reading -/

/-- The column type that a document names. -/
def typeOfJson (v : Json) : Except DataError ColumnType :=
  match v.str? with
  | none => .error .malformed
  | some s => (ColumnType.ofName s).mapError .unknownType

/-- The lists of cells that a document is, with their numbers normalised. -/
def rowsOfJson? (v : Json) : Option (List (List Json)) :=
  v.arr?.bind fun rows => rows.mapM fun r => r.arr?.map (·.map Json.normalize)

/-- The fields of a payload that have been read. -/
structure Draft where
  columns : Option (List String) := none
  types : Option (SortedMap ColumnType) := none
  rows : Option (List (List Json)) := none
  indexes : Option (SortedMap (SortedMap (List (List Json)))) := none

/-- What must not be missing. -/
def require {α : Type} (o : Option α) : Except DataError α :=
  match o with
  | some a => .ok a
  | none => .error .malformed

/-- Takes in one field. -/
def Draft.add (d : Draft) (field : String × Json) : Except DataError Draft := do
  let v := field.2
  match field.1 with
  | "columns" => return { d with columns := some (← require v.strs?) }
  | "column_types" =>
    match v with
    | .obj fields =>
      let types ← fields.mapM fun f => return (f.1, ← typeOfJson f.2)
      return { d with types := some (.ofList types) }
    | _ => .error .malformed
  | "rows" => return { d with rows := some (← require (rowsOfJson? v)) }
  | "indexes" => return { d with indexes := some (← require (v.map? (Json.map? rowsOfJson?))) }
  | _ => .error .malformed

/-- The payload of a JSON value; only its indexes may be missing. -/
def ofJson (v : Json) : Except DataError Payload := do
  let fields ← require (v.recordFields? ["columns", "column_types", "rows", "indexes"])
  let d ← fields.foldlM Draft.add {}
  return ⟨← require d.columns, ← require d.types, ← require d.rows, d.indexes.getD .empty⟩

/-! ## Tables -/

/-- The columns of a payload with their types, or the column that has none. -/
def schema (p : Payload) : Except DataError (List Column) :=
  p.columns.mapM fun name =>
    match p.types.get? name with
    | some t => .ok ⟨name, t⟩
    | none => .error (.untypedColumn name)

/-- The value of a cell in a column. -/
def decodeCell (c : Column) (v : Json) : Except DataError Scalar :=
  (Scalar.ofJson c.type v).mapError (.cell c.name)

/-- The values of cells at the types of their columns. -/
def decodeCells : List Column → List Json → Except DataError Row
  | c :: cs, v :: vs => do
    let x ← decodeCell c v
    let xs ← decodeCells cs vs
    return x :: xs
  | _, _ => .ok []

/-- The row of some columns that cells stand for. -/
def decodeRow (columns : List Column) (cells : List Json) : Except DataError Row :=
  if cells.length ≠ columns.length then .error (.rowLength cells.length columns.length)
  else decodeCells columns cells

/-- The rows of a payload, each one decoded. -/
def decodeRows (p : Payload) (columns : List Column) : Except DataError (List Row) :=
  p.rows.mapM (decodeRow columns)

/-- The index that encoded buckets stand for. -/
def decodeIndex (columns : List Column) (buckets : SortedMap (List (List Json))) :
    Except DataError Index := do
  let decoded ← buckets.entries.mapM fun b => return (b.1, ← b.2.mapM (decodeRow columns))
  return ⟨.ofList decoded⟩

/-- The indexes of a payload, each one decoded. -/
def decodeIndexes (p : Payload) (columns : List Column) : Except DataError (SortedMap Index) := do
  let decoded ← p.indexes.entries.mapM fun i => return (i.1, ← decodeIndex columns i.2)
  return .ofList decoded

/-- The table of a name that a payload stands for on its own. -/
def toTable (p : Payload) (name : String) : Except DataError Table := do
  let columns ← p.schema
  let t ← (Table.create name columns).mapError .schema
  let rows ← p.decodeRows columns
  let indexes ← p.decodeIndexes columns
  return { t with rows := rows, indexes := indexes }

/-- A cell that is decoded has the type of its column. -/
theorem type_decodeCell {c : Column} {v : Json} {x : Scalar} (h : decodeCell c v = .ok x) :
    x.type = c.type := by
  simp only [decodeCell, Scalar.ofJson] at h
  split at h
  · rename_i y hy; cases h; exact Scalar.type_ofJson? hy
  · cases h

/-- Cells that are as many as the columns are decoded to a row that fits them. -/
theorem fits_decodeCells {columns : List Column} {cells : List Json} {r : Row}
    (hlen : cells.length = columns.length) (h : decodeCells columns cells = .ok r) :
    Table.Fits columns r := by
  induction columns generalizing cells r with
  | nil => cases cells <;> simp_all [decodeCells, Table.Fits]
  | cons c cs ih =>
    cases cells with
    | nil => simp at hlen
    | cons v vs =>
      simp only [decodeCells] at h
      cases hx : decodeCell c v with
      | error e => rw [hx] at h; cases h
      | ok x =>
        cases hxs : decodeCells cs vs with
        | error e =>
          simp only [hx, hxs, bind, Except.bind] at h
          cases h
        | ok xs =>
          simp only [hx, hxs, bind, Except.bind, pure, Except.pure, Except.ok.injEq] at h
          subst h
          have := ih (by simpa using hlen) hxs
          simp_all [Table.Fits, type_decodeCell hx]

/-- A decoded row fits the columns it was decoded for. -/
theorem fits_decodeRow {columns : List Column} {cells : List Json} {r : Row}
    (h : decodeRow columns cells = .ok r) : Table.Fits columns r := by
  simp only [decodeRow] at h
  split at h
  · cases h
  · rename_i hlen
    exact fits_decodeCells (by simpa using hlen) h

end Payload

/-- What is stored at once: payloads by the names of their tables. -/
abbrev Chunk := SortedMap Payload

namespace Chunk

/-- The chunk with the payload of one table. -/
def single (table : String) (p : Payload) : Chunk := SortedMap.empty.insert table p

/-- The record of a chunk. -/
def toJson (c : Chunk) : Json := .ofMap Payload.toJson c

/-- The chunk that a document is, or why it is none. -/
def ofJson (v : Json) : Except DataError Chunk :=
  match v with
  | .obj fields => do
    let payloads ← fields.mapM fun f => return (f.1, ← Payload.ofJson f.2)
    return .ofList payloads
  | _ => .error .malformed

end Chunk

end ProvenTables
