import ProvenTables.Scalar
import ProvenTables.SortedMap

/-!
# Tables

Typed columns, rows in insertion order, and indexes: snapshots that map the text of a key to the
rows with that key.
-/

namespace ProvenTables

/-- A column of a table. -/
structure Column where
  name : String
  type : ColumnType
  deriving DecidableEq

/-- The values of a row in the order of the columns. -/
abbrev Row := List Scalar

namespace Row

/-- The row in parentheses, as a message shows it. -/
def render (r : Row) : String := "(" ++ ", ".intercalate (r.map Scalar.render) ++ ")"

/-- The values at the given positions, if the row has them all. -/
def project? (r : Row) (positions : List Nat) : Option Row := positions.mapM (r[·]?)

/-- The row as a list of its values. -/
def toJson (r : Row) : Json := .arr (r.map Scalar.toJson)

end Row

/-- Rows by the text of a key. -/
structure Index where
  buckets : SortedMap (List Row)
  deriving DecidableEq

namespace Index

/-- Adds a row to the end of the bucket of its key. -/
def add (ix : Index) (key : String) (r : Row) : Index :=
  ⟨ix.buckets.insert key ((ix.buckets.get? key).getD [] ++ [r])⟩

/-- The index over one position of rows; rows without that position are left out. -/
def build (rows : List Row) (position : Nat) : Index :=
  rows.foldl (fun ix r => match r[position]? with
    | some key => ix.add key.render r
    | none => ix) ⟨.empty⟩

/-- The rows, bucket by bucket. -/
def rows (ix : Index) : List Row := ix.buckets.values.flatten

end Index

/-- A table with its columns, its rows and the indexes over them. -/
structure Table where
  name : String
  columns : List Column
  rows : List Row
  indexes : SortedMap Index
  deriving DecidableEq

/-- Why a row or a list of columns makes no table. -/
inductive TableError where
  | duplicateColumn (name : String)
  | arity (expected got : Nat)
  | type (column : String) (expected got : ColumnType)
  deriving DecidableEq

/-- What a client reads about rows and columns that do not fit. -/
def TableError.message : TableError → String
  | duplicateColumn name => "duplicate column name '" ++ name ++ "'"
  | arity expected got =>
    "row has " ++ toString got ++ " values, table has " ++ toString expected ++ " columns"
  | type column expected got =>
    "column '" ++ column ++ "' expects " ++ expected.name ++ ", got " ++ got.name

/-- The first name that occurs earlier in the list. -/
def firstRepeated? : List String → Option String
  | names => go [] names
where
  go (seen : List String) : List String → Option String
    | [] => none
    | n :: ns => if n ∈ seen then some n else go (n :: seen) ns

namespace Table

/-- The table with its columns and nothing in it. -/
def empty (name : String) (columns : List Column) : Table := ⟨name, columns, [], .empty⟩

/-- The table without rows, if the names of the columns are distinct. -/
def create (name : String) (columns : List Column) : Except TableError Table :=
  match firstRepeated? (columns.map (·.name)) with
  | some c => .error (.duplicateColumn c)
  | none => .ok (empty name columns)

/-- The table without its rows and its indexes. -/
def cleared (t : Table) : Table := empty t.name t.columns

/-- The names of the columns in their order. -/
def columnNames (t : Table) : List String := t.columns.map (·.name)

/-- The position of the first column of a name. -/
def position? (t : Table) (name : String) : Option Nat :=
  t.columns.findIdx? (·.name = name)

/-- The first column that has a name. -/
def column? (t : Table) (name : String) : Option Column :=
  t.columns.find? (·.name = name)

/-- The first column whose value in the row has another type. -/
def typeError? : List Column → Row → Option TableError
  | c :: cs, v :: vs =>
    if v.type = c.type then typeError? cs vs else some (.type c.name c.type v.type)
  | _, _ => none

/-- Why a row does not fit the columns. -/
def rowError? (columns : List Column) (r : Row) : Option TableError :=
  if r.length ≠ columns.length then some (.arity columns.length r.length)
  else typeError? columns r

/-- Adds a row that fits the columns. -/
def push (t : Table) (r : Row) : Except TableError Table :=
  match rowError? t.columns r with
  | some e => .error e
  | none => .ok { t with rows := t.rows ++ [r] }

/-- Adds rows that fit the columns, up to the first that does not. -/
def pushAll (t : Table) (rows : List Row) : Except TableError Table := rows.foldlM push t

/-- One value for each column, of the column's type. -/
def Fits (columns : List Column) (r : Row) : Prop := r.map Scalar.type = columns.map (·.type)

/-- Whether a row fits columns can be decided by comparing its types. -/
instance (columns : List Column) (r : Row) : Decidable (Fits columns r) := by
  unfold Fits; infer_instance

/-- A row of the right length has no type error if and only if it fits the columns. -/
theorem typeError?_eq_none_iff {columns : List Column} {r : Row} (h : r.length = columns.length) :
    typeError? columns r = none ↔ Fits columns r := by
  induction columns generalizing r with
  | nil => cases r <;> simp_all [typeError?, Fits]
  | cons c cs ih =>
    cases r with
    | nil => simp at h
    | cons v vs =>
      have := ih (r := vs) (by simpa using h)
      by_cases hv : v.type = c.type <;> simp_all [typeError?, Fits]

/-- A row is taken exactly if it fits the columns. -/
theorem rowError?_eq_none_iff {columns : List Column} {r : Row} :
    rowError? columns r = none ↔ Fits columns r := by
  by_cases h : r.length = columns.length
  · simp [rowError?, h, typeError?_eq_none_iff h]
  · simp only [rowError?, ne_eq, h, not_false_eq_true, ↓reduceIte, reduceCtorEq, false_iff]
    exact fun hf => h (by simpa using congrArg List.length hf)

end Table

end ProvenTables
