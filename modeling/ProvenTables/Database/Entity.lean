import ProvenTables.Database.Execute

/-!
# Tables from payloads

A table is created from a whole payload, and rows are appended from a payload with the columns of
the table.
-/

namespace ProvenTables.Database

/-- A payload is made a table under a new name, with the rows and the indexes that it has. -/
def createEntity (name : String) (payload : Payload) : Procedure DatabaseError Pointer := do
  if (← request (.lookup name)).isSome then .fail (.tableExists name)
  else
    let t ← .ofExcept ((payload.toTable name).mapError .payload)
    let c ← commit name .sentinel (.ofTable t)
    request (.create name c.history)

/-- The rows of a payload that declares the columns of a table and nothing else. -/
def appendedRows (t : Table) (payload : Payload) : Except DatabaseError (List Row) :=
  if payload.columns ≠ t.columnNames then
    .error (.columnMismatch t.columnNames payload.columns)
  else
    match t.columns.find? fun c => payload.types.get? c.name ≠ some c.type with
    | some c => .error (.payloadType c)
    | none =>
      if payload.indexes.size ≠ 0 then .error .payloadIndexes
      else (payload.decodeRows t.columns).mapError .payload

/-- Appends the rows of a payload to a table. -/
def appendData (name : String) (payload : Payload) : Procedure DatabaseError Pointer := do
  let (p, t) ← loadTable name
  let rows ← .ofExcept (appendedRows t payload)
  let c ← commit p.table p.address (.ofRows t rows)
  request (.repoint name p.address c.history)

/-- The registered tables in the order of their names. -/
def tables : Procedure DatabaseError (List Pointer) := request .list

end ProvenTables.Database
