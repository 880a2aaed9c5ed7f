import ProvenTables.Table

/-!
# Statements

The statements of the dialect as values. Literals keep their text until the columns are known.
-/

namespace ProvenTables.Sql

/-- `CREATE TABLE table (column type, …)` -/
structure CreateTable where
  table : String
  columns : List Column
  deriving DecidableEq

/-- `CREATE INDEX index ON table (column)` -/
structure CreateIndex where
  index : String
  table : String
  column : String
  deriving DecidableEq

/-- `INSERT INTO table (column, …) VALUES (literal, …), …` -/
structure Insert where
  table : String
  columns : List String
  rows : List (List String)
  deriving DecidableEq

/-- The columns asked for. -/
inductive Projection where
  | all
  | columns (names : List String)
  deriving DecidableEq

/-- `WHERE column = literal` -/
structure Filter where
  column : String
  literal : String
  deriving DecidableEq

/-- `COSINE SIMILARITY column WITH vector` -/
structure Ranking where
  column : String
  vector : List Binary64
  deriving DecidableEq

/-- `SELECT projection FROM table` with its clauses. -/
structure Select where
  table : String
  projection : Projection
  filter : Option Filter
  groupBy : Option String
  orderBy : Option String
  limit : Option Nat
  ranking : Option Ranking
  deriving DecidableEq

/-- A statement of the language. -/
inductive Statement where
  | createTable (s : CreateTable)
  | createIndex (s : CreateIndex)
  | insert (s : Insert)
  | select (s : Select)
  deriving DecidableEq

/-- The words that a statement starts with. -/
def Statement.kind : Statement → String
  | createTable _ => "CREATE TABLE"
  | createIndex _ => "CREATE INDEX"
  | insert _ => "INSERT"
  | select _ => "SELECT"

/-- The table that a statement is about. -/
def Statement.table : Statement → String
  | createTable s => s.table
  | createIndex s => s.table
  | insert s => s.table
  | select s => s.table

/-- The clauses after the table of a `SELECT`, in the order they must have. -/
inductive Clause where
  | where
  | groupBy
  | orderBy
  | limit
  | similarity
  deriving DecidableEq

namespace Clause

/-- Every clause, in the order that a query has them in. -/
def all : List Clause := [.where, groupBy, orderBy, limit, similarity]

/-- The words that a clause starts with. -/
def keyword : Clause → String
  | .where => "WHERE"
  | groupBy => "GROUP BY"
  | orderBy => "ORDER BY"
  | limit => "LIMIT"
  | similarity => "COSINE SIMILARITY"

end Clause

end ProvenTables.Sql
