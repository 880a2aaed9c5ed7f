import ProvenTables.Json.Record
import ProvenTables.Json.Shape
import ProvenTables.Storage.Error

/-!
# Registries

The address of the latest history of each table. A table is registered once, under an identifier of
64 bits, and then moved from one address to the next.
-/

namespace ProvenTables

/-- The registration of a table. -/
structure Pointer where
  id : UInt64
  table : String
  address : Address
  deriving DecidableEq

namespace Pointer

/-- The record of a registration. -/
def toJson (p : Pointer) : Json :=
  .obj [("id", .nat p.id.toNat), ("table_name", .str p.table),
    ("sequence_cid", .str p.address.text)]

/-- What a registration is written as. -/
def shape : Json.Shape :=
  .record [("id", .any), ("table_name", .text), ("sequence_cid", .text)] []

/-- The registration that a document is, if it is one. -/
def ofJson? (v : Json) : Option Pointer := do
  match ← v.record? ["id", "table_name", "sequence_cid"] with
  | [some id, some table, some address] =>
    return ⟨UInt64.ofNat (← id.natBelow? (2 ^ 64)), ← table.str?, ⟨← address.str?⟩⟩
  | _ => none

end Pointer

/-- The registrations of tables and the last number that has been given out. -/
structure Registry where
  lastId : UInt64
  pointers : SortedMap Pointer
  deriving DecidableEq

namespace Registry

/-- The registry without tables. -/
def empty : Registry := ⟨0, .empty⟩

/-- Without other information a registry is empty. -/
instance : Inhabited Registry := ⟨empty⟩

/-- The registration of a table, if there is one. -/
def pointer? (r : Registry) (table : String) : Option Pointer := r.pointers.get? table

/-- The registered tables in the order of their names. -/
def list (r : Registry) : List Pointer := r.pointers.values

/-- The identifier of the next table: one more than the last, and than the number of tables. -/
def nextId (r : Registry) : UInt64 := max r.lastId (UInt64.ofNat r.pointers.size) + 1

/-- Registers a new table. -/
def create (r : Registry) (table : String) (address : Address) :
    Except StorageError (Pointer × Registry) :=
  if r.pointers.contains table then .error (.tableExists table)
  else
    let p : Pointer := ⟨r.nextId, table, address⟩
    .ok (p, ⟨p.id, r.pointers.insert table p⟩)

/-- Moves a table from the address that it is expected to have to another. -/
def repoint (r : Registry) (table : String) (expected new : Address) :
    Except StorageError (Pointer × Registry) :=
  match r.pointer? table with
  | none => .error (.unknownTable table)
  | some p =>
    if p.address ≠ expected then .error (.conflict table expected p.address)
    else
      let p := { p with address := new }
      .ok (p, { r with pointers := r.pointers.insert table p })

/-! ## Files -/

/-- The record of a registry. -/
def toJson (r : Registry) : Json :=
  .obj [("next_id", .nat r.lastId.toNat), ("pointers", .ofMap Pointer.toJson r.pointers)]

/-- The text of a registry as its file holds it. -/
def render (r : Registry) : String := r.toJson.pretty

/-- The registry that a document is, if it is one. -/
def ofJson? (v : Json) : Option Registry := do
  match ← v.record? ["next_id", "pointers"] with
  | [some last, some pointers] =>
    return ⟨UInt64.ofNat (← last.natBelow? (2 ^ 64)), ← pointers.map? Pointer.ofJson?⟩
  | _ => none

/-- The shape that the file of a registry must have. -/
def shape : Json.Shape := .record [("next_id", .any), ("pointers", .map Pointer.shape)] []

/-- The registry that a text holds, or the error that it holds none. -/
def read (content : String) : Except StorageError Registry :=
  match shape.read content with
  | .ok v =>
    match ofJson? v with
    | some r => .ok r
    | none => .error (.data .malformed)
  | .error _ => .error (.data .malformed)

end Registry

end ProvenTables
