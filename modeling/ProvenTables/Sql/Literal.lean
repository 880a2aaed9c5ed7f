import ProvenTables.Table

/-!
# Literals

The text of a literal takes its type from the column it is bound to, never from its own shape.
-/

namespace ProvenTables.Sql

open Text

/-- The mark that opens and closes a text. -/
def quoteMark : Char := '\''

/-- The text without blanks at the ends, one quote at its start and one at its end. -/
def stripQuotes (cs : List Char) : List Char :=
  let cs := trim cs
  let cs := match cs with
    | '\'' :: r => r
    | cs => cs
  match cs.reverse with
  | '\'' :: r => r.reverse
  | _ => cs

/-- Why a text is no vector. -/
inductive VectorError where
  | notBracketed (text : String)
  | notNumber (item : String)
  deriving DecidableEq

/-- What a client reads about a vector that is none. -/
def VectorError.message : VectorError → String
  | notBracketed text => "expected '[...]', got '" ++ text ++ "'"
  | notNumber item => "'" ++ item ++ "' is not a number"

/-- The text between an opening bracket at the start and a closing one at the end. -/
def insideBrackets? : List Char → Option (List Char)
  | '[' :: r =>
    match r.reverse with
    | ']' :: inner => some inner.reverse
    | _ => none
  | _ => none

/-- A finite number, blanks at the ends apart. -/
def readComponent (cs : List Char) : Except VectorError Binary64 :=
  let item := trim cs
  match Binary64.readFinite? item with
  | some x => .ok x
  | none => .error (.notNumber (String.ofList item))

/-- A vector: numbers in brackets, separated by commas. -/
def readVector (cs : List Char) : Except VectorError (List Binary64) :=
  let text := trim cs
  match insideBrackets? text with
  | none => .error (.notBracketed (String.ofList text))
  | some inner =>
    if (trim inner).isEmpty then .ok []
    else (splitBy (· == ',') inner).mapM readComponent

/-- A literal that is no value of its column's type. -/
structure ConversionError where
  column : Column
  literal : String
  deriving DecidableEq

/-- What a client reads about a literal that does not convert to its column. -/
def ConversionError.message (e : ConversionError) : String :=
  "cannot convert " ++ e.literal ++ " to " ++ e.column.type.name ++ " for column '" ++
    e.column.name ++ "'"

/-- An integer of 64 bits. -/
def readInt64? (cs : List Char) : Option Int64 :=
  (readInt? cs).bind fun n =>
    if -2 ^ 63 ≤ n ∧ n < 2 ^ 63 then some (Int64.ofInt n) else none

/-- Whether a text stands for true: `true` in any case or `1`, quoted or not. -/
def readsTrue (cs : List Char) : Bool :=
  let word := stripQuotes cs
  eqIgnoringAsciiCase word ['t', 'r', 'u', 'e'] || word == ['1']

/-- The value of a type that the text of a literal stands for. -/
def readScalar? (type : ColumnType) (cs : List Char) : Option Scalar :=
  match type with
  | .int => (readInt64? cs).map .int
  | .float => (Binary64.readFinite? cs).map .float
  | .bool => some (.bool (readsTrue cs))
  | .string => some (.string (String.ofList (stripQuotes cs)))
  | .datetime => (Timestamp.read? (String.ofList (stripQuotes cs))).map .datetime
  | .floats => ((readVector (stripQuotes cs)).toOption).map .floats

/-- The value for a column that a literal stands for. -/
def convert (column : Column) (literal : String) : Except ConversionError Scalar :=
  let raw := trim literal.toList
  match readScalar? column.type raw with
  | some v => .ok v
  | none => .error ⟨column, String.ofList raw⟩

/-- A value that is read at a type has that type. -/
theorem type_readScalar? {type : ColumnType} {cs : List Char} {v : Scalar}
    (h : readScalar? type cs = some v) : v.type = type := by
  cases type <;> simp only [readScalar?, Option.map_eq_some_iff, Option.some.injEq] at h
  case bool => subst h; rfl
  case string => subst h; rfl
  all_goals obtain ⟨_, -, rfl⟩ := h; rfl

/-- A converted literal has the type of its column. -/
theorem type_convert {column : Column} {literal : String} {v : Scalar}
    (h : convert column literal = .ok v) : v.type = column.type := by
  simp only [convert] at h
  split at h
  · rename_i w hw; cases h; exact type_readScalar? hw
  · cases h

end ProvenTables.Sql
