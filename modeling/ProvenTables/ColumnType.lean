import ProvenTables.Text.Blank

/-!
# Column types

The types that a column may declare. A type has one name in stored data and several in statements.
-/

namespace ProvenTables

/-- The types that a column can have. -/
inductive ColumnType where
  | int
  | float
  | bool
  | string
  | datetime
  | floats
  deriving DecidableEq, Repr

namespace ColumnType

/-- The name in stored data and in messages. -/
def name : ColumnType → String
  | int => "int"
  | float => "float"
  | bool => "bool"
  | string => "string"
  | datetime => "datetime"
  | floats => "list[float]"

/-- The type of a name in stored data. -/
def ofName? (s : String) : Option ColumnType :=
  [int, float, bool, string, datetime, floats].find? (·.name = s)

/-- The names of a type in statements. -/
def spellings : ColumnType → List String
  | int => ["int", "int64", "integer", "bigint"]
  | float => ["float", "float64", "double", "real"]
  | bool => ["bool", "boolean"]
  | string => ["string", "utf8string", "text", "varchar"]
  | datetime => ["datetime", "timestamp"]
  | floats => ["list[float]", "floatvector", "vector"]

/-- The type of a name in a statement; blanks around it and the case of ASCII letters are
ignored. -/
def ofSpelling? (s : String) : Option ColumnType :=
  let s := Text.asciiLower (Text.trimmed s)
  [int, float, bool, string, datetime, floats].find? fun t => s ∈ t.spellings

/-- The name of a type names it. -/
theorem ofName?_name (t : ColumnType) : ofName? t.name = some t := by cases t <;> decide

end ColumnType

/-- The cause of a failure to read a type's name. -/
structure UnknownType where
  name : String
  deriving DecidableEq

/-- What a client reads about a type name that names nothing. -/
def UnknownType.message (e : UnknownType) : String :=
  "unsupported column type '" ++ e.name ++ "'"

/-- The type of a name, or what is wrong with the name. -/
def ColumnType.ofName (s : String) : Except UnknownType ColumnType :=
  match ofName? s with
  | some t => .ok t
  | none => .error ⟨s⟩

end ProvenTables
