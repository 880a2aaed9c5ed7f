import ProvenTables.Query.Cosine
import ProvenTables.Sql.ParseError

/-!
# Query plans

A `SELECT` whose columns have been found in a table, and its evaluation: filter, group, order, rank,
limit and project. A query for one column that has an index of its name gives the rows of the index.
-/

namespace ProvenTables.Query

open Sql

/-- The rows that a query gives, in one list or in groups. -/
inductive Result where
  | rows (rs : List Row)
  | groups (gs : List (List Row))
  deriving DecidableEq

namespace Result

/-- The number of rows or of groups. -/
def length : Result → Nat
  | rows rs => rs.length
  | groups gs => gs.length

/-- The rows, without their division into groups. -/
def allRows : Result → List Row
  | rows rs => rs
  | groups gs => gs.flatten

/-- The rows as lists of values, or the groups as lists of rows. -/
def toJson : Result → Json
  | rows rs => .arr (rs.map Row.toJson)
  | groups gs => .arr (gs.map fun g => .arr (g.map Row.toJson))

end Result

/-- Named columns and the rows with a value for each. -/
structure Answer where
  columns : List String
  result : Result
  deriving DecidableEq

/-- Why a query is not answered. -/
inductive QueryError where
  | unknownColumn (table column : String)
  /-- The literal compared with a column of integers is none. -/
  | notInteger (column literal : String)
  /-- A row has no value for an output column; rows that fit their columns have one. -/
  | shortRow
  deriving DecidableEq

namespace QueryError

/-- The code that an error is reported with. -/
def code : QueryError → ErrorCode
  | unknownColumn _ _ => .unknownColumn
  | notInteger _ _ => .syntaxError
  | shortRow => .internal

/-- What a client reads about an error. -/
def message : QueryError → String
  | unknownColumn table column => "column not found: " ++ column ++ " in table " ++ table
  | notInteger column literal =>
    "syntax error: column '" ++ column ++ "' is int, '" ++ literal ++ "' is not an integer literal"
  | shortRow => "internal error: row is too short"

end QueryError

/-- The cell that a filter looks for at a position. -/
structure Condition where
  position : Nat
  value : Scalar
  deriving DecidableEq

/-- Whether a row has the value; only integers and strings are ever equal to one. -/
def Condition.holds (c : Condition) (r : Row) : Bool :=
  match r[c.position]?, c.value with
  | some (.int a), .int b => a == b
  | some (.string a), .string b => a == b
  | _, _ => false

/-- A `SELECT` with positions in place of columns. -/
structure Plan where
  output : List Nat
  ranking : Option (Nat × List Binary64)
  condition : Option Condition
  groupBy : Option Nat
  orderBy : Option Nat
  limit : Option Nat

/-- The position of a column, or the error that the table has none of that name. -/
def locate (t : Table) (column : String) : Except QueryError Nat :=
  match t.position? column with
  | some p => .ok p
  | none => .error (.unknownColumn t.name column)

/-- The position of a column that may be missing from a statement. -/
def locateOptional (t : Table) (column : Option String) : Except QueryError (Option Nat) :=
  match column with
  | some c => some <$> locate t c
  | none => .ok none

/-- The condition of a filter. A column of integers is compared as integers and any other as
text. -/
def conditionOf (t : Table) (f : Filter) : Except QueryError Condition := do
  let p ← locate t f.column
  if t.columns[p]?.map (·.type) = some .int then
    let literal := Text.trim f.literal.toList
    match readInt64? literal with
    | some n => return ⟨p, .int n⟩
    | none => .error (.notInteger f.column (String.ofList literal))
  else return ⟨p, .string (String.ofList (stripQuotes f.literal.toList))⟩

/-- The plan of a `SELECT` on a table. The column of a ranking is an output column. -/
def planOf (t : Table) (s : Select) : Except QueryError Plan := do
  let output ← match s.projection with
    | .all => .ok (List.range t.columns.length)
    | .columns names => names.mapM (locate t)
  let ranking ← match s.ranking with
    | some r => do pure (some (← locate t r.column, r.vector))
    | none => pure none
  let output := match ranking with
    | some (p, _) => if p ∈ output then output else output ++ [p]
    | none => output
  let condition ← match s.filter with
    | some f => some <$> conditionOf t f
    | none => .ok none
  let groupBy ← locateOptional t s.groupBy
  let orderBy ← locateOptional t s.orderBy
  return ⟨output, ranking, condition, groupBy, orderBy, s.limit⟩

/-- The order of two rows by the cells at a position. -/
def orderAt (position : Nat) (a b : Row) : Ordering :=
  match a[position]?, b[position]? with
  | some x, some y => x.order y
  | _, _ => .eq

/-- The similarity of the vector at a position to another. -/
def score? (position : Nat) (vector : List Binary64) (r : Row) : Option Binary64 :=
  match r[position]? with
  | some (.floats xs) => cosine? xs vector
  | _ => none

/-- Puts a row into sorted rows, of which the greatest comes first, before the first row that it
does not precede. -/
def insertRow (order : Row → Row → Ordering) (r : Row) : List Row → List Row
  | [] => [r]
  | x :: xs => if order r x = .lt then x :: insertRow order r xs else r :: x :: xs

/-- Sorts by inserting one row after the other, so that rows that compare as equal keep their
order. -/
def sortRows (order : Row → Row → Ordering) (rows : List Row) : List Row :=
  (rows.foldl (fun sorted r => insertRow order r sorted) []).reverse

/-- Adds a row to the group of its key, the last if it is new. -/
def addToGroup (key : String) (r : Row) : List (String × List Row) → List (String × List Row)
  | [] => [(key, [r])]
  | g :: gs => if g.1 = key then (key, g.2 ++ [r]) :: gs else g :: addToGroup key r gs

/-- The text by which rows are put into groups. -/
def groupKey (position : Nat) (r : Row) : String := (r[position]?.map Scalar.render).getD ""

/-- The rows grouped by the text of a cell, groups in the order of their first rows. -/
def groupRows (position : Nat) (rows : List Row) : List (List Row) :=
  (rows.foldl (fun gs r => addToGroup (groupKey position r) r gs) []).map (·.2)

namespace Plan

/-- Whether a row meets the condition, if there is one. -/
def keeps (p : Plan) (r : Row) : Bool :=
  match p.condition with
  | some c => c.holds r
  | none => true

/-- Rows in order, then ranked. -/
def arrange (p : Plan) (rows : List Row) : List Row :=
  let ordered := match p.orderBy with
    | some i => sortRows (orderAt i) rows
    | none => rows
  match p.ranking with
  | some (i, v) => sortRows (fun a b => orderScores (score? i v a) (score? i v b)) ordered
  | none => ordered

/-- The first elements, as many as the limit allows. -/
def cut {α : Type} (p : Plan) (xs : List α) : List α :=
  match p.limit with
  | some n => xs.take n
  | none => xs

/-- The name and the index of the only output column, if it has one. -/
def index? (p : Plan) (t : Table) : Option (String × Index) :=
  match p.output with
  | [i] => do
    let c ← t.columns[i]?
    let ix ← t.indexes.get? c.name
    return (c.name, ix)
  | _ => none

/-- The rows with the columns of the output only. -/
def project (p : Plan) (rows : List Row) : Except QueryError (List Row) :=
  match rows.mapM fun r => r.project? p.output with
  | some rs => .ok rs
  | none => .error .shortRow

/-- The names of the columns of the output. -/
def outputNames (p : Plan) (t : Table) : List String :=
  p.output.filterMap fun i => t.columns[i]?.map (·.name)

/-- The answer of a plan, which is the rows of an index if the output is one column that names it. -/
def run (p : Plan) (t : Table) : Except QueryError Answer := do
  match p.index? t with
  | some (name, ix) => return ⟨[name], .rows (← p.project ix.rows)⟩
  | none =>
    let rows := t.rows.filter p.keeps
    let result ← match p.groupBy with
      | some i =>
        let groups := p.cut ((groupRows i rows).map p.arrange)
        .groups <$> groups.mapM p.project
      | none => .rows <$> p.project (p.cut (p.arrange rows))
    return ⟨p.outputNames t, result⟩

end Plan

/-- The answer of a query on a table. -/
def select (t : Table) (s : Select) : Except QueryError Answer := do
  (← planOf t s).run t

end ProvenTables.Query
