import ProvenTables.Binary64.Notation
import ProvenTables.ColumnType
import ProvenTables.Json.Printer
import ProvenTables.Timestamp.Notation

/-!
# Scalars

The values of cells, each of one column type, with their order, their text and their form in JSON.
-/

namespace ProvenTables

/-- A value of a cell. -/
inductive Scalar where
  | int (n : Int64)
  | float (x : Binary64)
  | bool (b : Bool)
  | string (s : String)
  | datetime (t : Timestamp)
  | floats (xs : List Binary64)
  deriving DecidableEq

/-- A JSON value that is no value of a column type. -/
structure Mismatch where
  expected : ColumnType
  got : Json

/-- What a client reads about a value that does not have the type of its column. -/
def Mismatch.message (e : Mismatch) : String :=
  "expected " ++ e.expected.name ++ " value, got " ++ e.got.canonical

/-- Items in brackets, separated by a comma and a blank. -/
def bracketed (items : List String) : String :=
  "[" ++ ", ".intercalate items ++ "]"

/-- Numbers in brackets, as a list of them is shown in a cell. -/
def renderFloats (xs : List Binary64) : String := bracketed (xs.map (·.render .text))

namespace Scalar

/-- The type of a value. -/
def type : Scalar → ColumnType
  | int _ => .int
  | float _ => .float
  | bool _ => .bool
  | string _ => .string
  | datetime _ => .datetime
  | floats _ => .floats

/-- The place of a type among the types when values of different types are ordered. -/
def typeRank : Scalar → Nat
  | int _ => 0
  | float _ => 1
  | bool _ => 2
  | string _ => 3
  | datetime _ => 4
  | floats _ => 5

/-- The first difference decides; a proper beginning comes first. -/
def orderFloats : List Binary64 → List Binary64 → Ordering
  | [], [] => .eq
  | [], _ :: _ => .lt
  | _ :: _, [] => .gt
  | x :: xs, y :: ys => (x.totalCompare y).then (orderFloats xs ys)

/-- The order of values: by type, and among values of one type by content. -/
def order : Scalar → Scalar → Ordering
  | int a, int b => compare a.toInt b.toInt
  | float a, float b => a.totalCompare b
  | bool a, bool b => compare a.toNat b.toNat
  | string a, string b => compare a b
  | datetime a, datetime b => a.order b
  | floats a, floats b => orderFloats a b
  | a, b => compare a.typeRank b.typeRank

/-- Equality in which floats are compared as numbers. -/
def equals : Scalar → Scalar → Bool
  | float a, float b => a.equals b
  | floats a, floats b => a.length == b.length && (List.zipWith Binary64.equals a b).all id
  | a, b => a == b

/-- The text of a value in a cell. -/
def render : Scalar → String
  | int n => toString n.toInt
  | float x => x.render .text
  | bool b => if b then "true" else "false"
  | string s => s
  | datetime t => t.render
  | floats xs => renderFloats xs

/-- The value in JSON; a float without a JSON number becomes null. -/
def toJson : Scalar → Json
  | int n => .int n.toInt
  | float x => .float x
  | bool b => .bool b
  | string s => .str s
  | datetime t => .str t.render
  | floats xs => .arr (xs.map Json.float)

/-- The value of a column type that a JSON value stands for. -/
def ofJson? (type : ColumnType) (v : Json) : Option Scalar :=
  match type with
  | .int => v.int64?.map fun n => int (Int64.ofInt n)
  | .float => v.float?.map float
  | .bool => v.bool?.map bool
  | .string => v.str?.map string
  | .datetime => (v.str?.bind Timestamp.read?).map datetime
  | .floats => (v.arr?.bind fun items => items.mapM Json.float?).map floats

/-- The value that a document has at a column type, or what does not match. -/
def ofJson (type : ColumnType) (v : Json) : Except Mismatch Scalar :=
  match ofJson? type v with
  | some x => .ok x
  | none => .error ⟨type, v⟩

/-- A value that is read at a type has that type. -/
theorem type_ofJson? {type : ColumnType} {v : Json} {x : Scalar} (h : ofJson? type v = some x) :
    x.type = type := by
  cases type <;> simp only [ofJson?, Option.map_eq_some_iff] at h <;>
    obtain ⟨_, -, rfl⟩ := h <;> rfl

end Scalar

end ProvenTables
