import ProvenTables.Binary64.Arithmetic
import ProvenTables.Digest
import ProvenTables.Membership.Error
import ProvenTables.Table

/-!
# Cells as field elements

A cell is encoded from the name and position of its column and its value, so that a projected cell
is encoded like the cell it comes from. The encoded cells of a table, and those of records, are the
roots of two polynomials.
-/

namespace ProvenTables.Membership

/-- The order of the scalar field of the curve BN254. -/
def bn254Order : Nat :=
  21888242871839275222246405745257275088548364400416034343698204186575808495617

/-- The order of the field of encoded cells, and the modulus of the operands of a circuit. -/
structure Params where
  order : Nat
  scale : Nat
  deriving DecidableEq

/-- The parameters of the scalar field of the curve BN254. -/
def Params.bn254 : Params := ⟨bn254Order, bn254Order⟩

/-- The factor by which a float is multiplied before it is rounded to an integer. -/
def fixedPointScale : Binary64 := Binary64.ofInt (10 ^ 8)

/-- The number that the digest of bytes writes. -/
def digestNat (bytes : List UInt8) : Nat := Bytes.toNat (Digest.sha256 bytes)

/-- The integer of a value: the bytes of a text, a float in units of `1e-8`, the second of a
timestamp, the digest of a vector's text. -/
def encodeValue : Scalar → Except MembershipError Int
  | .string s => .ok (Bytes.toNat (Digest.utf8 s))
  | .int n => .ok n.toInt
  | .float x =>
    let y := x.mul fixedPointScale
    if y.isFinite then .ok y.round else .error (.notFinite x)
  | .bool b => .ok b.toNat
  | .datetime t => .ok t.unixSeconds
  | .floats xs => .ok (digestNat (Digest.utf8 (renderFloats xs)))

/-- The integer of a value of a type. -/
def encodeScalar (type : ColumnType) (v : Scalar) : Except MembershipError Int :=
  if v.type = type then encodeValue v else .error (.typeMismatch type v.type)

/-- The text that is hashed for a cell: the digest of the column's name, the column's position and
the value, each in decimal. -/
def cellPreimage (name : String) (position : Nat) (value : Int) : String :=
  toString (digestNat (Digest.utf8 name)) ++ toString position ++ toString value

/-- The field element of a cell. The order is positive here, as in `Challenge.point`. -/
def encodeCell (params : Params) (column : Column) (position : Nat) (v : Scalar) :
    Except MembershipError Nat := do
  let value ← encodeScalar column.type v
  return digestNat (Digest.utf8 (cellPreimage column.name position value)) % params.order

/-- The field elements of a row whose values belong to the given columns and positions. -/
def encodeRow (params : Params) (columns : List (Nat × Column)) (r : Row) :
    Except MembershipError (List Nat) :=
  (columns.zip r).mapM fun cell => encodeCell params cell.1.2 cell.1.1 cell.2

/-- The columns of a table with their positions. -/
def placedColumns (t : Table) : List (Nat × Column) := t.columns.zipIdx.map fun p => (p.2, p.1)

/-- The roots of a table: its encoded cells, row by row. -/
def tableRoots (params : Params) (t : Table) : Except MembershipError (List Nat) :=
  List.flatten <$> t.rows.mapM (encodeRow params (placedColumns t))

/-- The columns that records have, with their positions in the table; no names stand for all. -/
def recordColumns (t : Table) (names : List String) :
    Except MembershipError (List (Nat × Column)) :=
  if names.isEmpty then .ok (placedColumns t)
  else names.mapM fun name =>
    match (t.position? name).bind fun p => t.columns[p]?.map fun c => (p, c) with
    | some placed => .ok placed
    | none => .error (.unknownColumn name)

/-- The cells of a record without those of columns that occur earlier in it: a column projected
twice is one cell of the table. -/
def distinctCells (seen : List Nat) :
    List (Nat × Column) → Row → List ((Nat × Column) × Scalar)
  | c :: cs, v :: vs =>
    if c.1 ∈ seen then distinctCells seen cs vs
    else (c, v) :: distinctCells (c.1 :: seen) cs vs
  | _, _ => []

/-- The field elements of a record, with one for every column that it has. -/
def encodeRecord (params : Params) (columns : List (Nat × Column)) (r : Row) :
    Except MembershipError (List Nat) :=
  (distinctCells [] columns r).mapM fun cell => encodeCell params cell.1.2 cell.1.1 cell.2

/-- The roots of records: their encoded cells, record by record. -/
def recordRoots (params : Params) (t : Table) (names : List String) (records : List Row) :
    Except MembershipError (List Nat) := do
  let columns ← recordColumns t names
  return (← records.mapM (encodeRecord params columns)).flatten

end ProvenTables.Membership
