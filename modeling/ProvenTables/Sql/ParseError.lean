import ProvenTables.ErrorCode
import ProvenTables.Sql.Literal
import ProvenTables.Sql.Statement

/-!
# Parse errors

Why a text is no statement of the dialect.
-/

namespace ProvenTables.Sql

/-- A keyword that a statement cannot do without. -/
inductive Keyword where
  | on
  | values
  | from
  | with
  deriving DecidableEq

/-- The word of a keyword. -/
def Keyword.word : Keyword → String
  | .on => "ON"
  | .values => "VALUES"
  | .from => "FROM"
  | .with => "WITH"

/-- Why a statement is not parsed. -/
inductive ParseError where
  | empty
  | unsupported (word : String)
  | noList (text : String)
  | badIdentifier (text : String)
  | strayCharacter (c : Char)
  | unopened (c : Char)
  | emptyGroup
  | openGroup
  | noGroup
  | notOneList (text : String)
  | badDefinition (text : String)
  | missing (keyword : Keyword)
  | repeatedClause (clause : Clause)
  | clauseOrder
  | strayText (text : String)
  | emptyClause (clause : Clause)
  | badLimit (text : String)
  | badComparison (text : String)
  | noLiteral
  | badVector (cause : VectorError)
  | unsupportedType (type column : String)
  | repeatedColumn (column : String)
  deriving DecidableEq

namespace ParseError

/-- Whether the fault lies in the columns of a new table. -/
def isSchemaError : ParseError → Bool
  | unsupportedType _ _ | repeatedColumn _ => true
  | _ => false

/-- The code that an error is reported with. -/
def code (e : ParseError) : ErrorCode :=
  if e.isSchemaError then .schemaError else .syntaxError

/-- What is wrong, without the kind of error. -/
def detail : ParseError → String
  | empty => "empty query"
  | unsupported word => "unsupported statement: '" ++ word ++ "'"
  | noList text => "expected '(' after '" ++ text ++ "'"
  | badIdentifier text => "invalid identifier '" ++ text ++ "'"
  | strayCharacter c => "unexpected '" ++ c.toString ++ "' in value list"
  | unopened c => "unbalanced '" ++ c.toString ++ "'"
  | emptyGroup => "empty value group"
  | openGroup => "unterminated value group"
  | noGroup => "expected at least one value group"
  | notOneList text => "expected a single parenthesized list, got '" ++ text ++ "'"
  | badDefinition text => "expected '<column> <type>', got '" ++ text ++ "'"
  | missing .on => "expected 'ON' in CREATE INDEX"
  | missing .values => "expected 'VALUES' in INSERT"
  | missing .from => "expected 'FROM' in SELECT"
  | missing .with => "expected 'COSINE SIMILARITY <column> WITH [..]'"
  | repeatedClause clause => "duplicate " ++ clause.keyword ++ " clause"
  | clauseOrder =>
    "clauses must appear in the order " ++ ", ".intercalate (Clause.all.map Clause.keyword)
  | strayText text => "unexpected text after table name: '" ++ text ++ "'"
  | emptyClause clause => "empty " ++ clause.keyword ++ " clause"
  | badLimit text => "LIMIT expects a non-negative integer, got '" ++ text ++ "'"
  | badComparison text =>
    "WHERE supports a single '<column> = <literal>' comparison, got '" ++ text ++ "'"
  | noLiteral => "WHERE is missing a literal"
  | badVector cause => "invalid similarity vector: " ++ cause.message
  | unsupportedType type column => "unsupported type '" ++ type ++ "' for column '" ++ column ++ "'"
  | repeatedColumn column => "duplicate column '" ++ column ++ "'"

/-- What a client reads about an error. -/
def message (e : ParseError) : String :=
  match e with
  | empty => e.detail
  | e => (if e.isSchemaError then "schema error: " else "syntax error: ") ++ e.detail

end ParseError

end ProvenTables.Sql
