import ProvenTables.Query.Plan
import ProvenTables.Storage.Error

/-!
# Database errors
-/

namespace ProvenTables

/-- Why work on a database fails. -/
inductive DatabaseError where
  | parse (cause : Sql.ParseError)
  /-- The columns that are given are not those of the table. -/
  | columnMismatch (expected got : List String)
  | valueCount (expected got : Nat)
  | conversion (cause : Sql.ConversionError)
  | query (cause : Query.QueryError)
  | schema (cause : TableError)
  | storage (cause : StorageError)
  /-- A converted row does not fit the table it was converted for. -/
  | internal (cause : TableError)
  | payload (cause : DataError)
  /-- A payload has another type for a column than the table. -/
  | payloadType (column : Column)
  /-- A payload to be appended has indexes. -/
  | payloadIndexes

namespace DatabaseError

/-- The code that an error is reported with. -/
def code : DatabaseError → ErrorCode
  | parse cause => cause.code
  | columnMismatch _ _ => .columnMismatch
  | valueCount _ _ => .syntaxError
  | conversion _ => .typeConversion
  | query cause => cause.code
  | schema _ => .schemaError
  | storage cause => cause.code
  | internal _ => .internal
  | payload _ | payloadType _ | payloadIndexes => .invalidArgument

/-- What a client reads about an error. -/
def message : DatabaseError → String
  | parse cause => cause.message
  | columnMismatch expected got =>
    "column list (" ++ ", ".intercalate got ++ ") does not match table columns (" ++
      ", ".intercalate expected ++ ")"
  | valueCount expected got =>
    "syntax error: expected " ++ toString expected ++ " values, got " ++ toString got
  | conversion cause => cause.message
  | query cause => cause.message
  | schema cause => "schema error: " ++ cause.message
  | storage cause => cause.message
  | internal cause => "internal error: " ++ cause.message
  | payload cause => "invalid payload: " ++ (StorageError.data cause).message
  | payloadType column =>
    "invalid payload: column '" ++ column.name ++ "' must have type " ++ column.type.name
  | payloadIndexes => "invalid payload: indexes cannot be appended; use CREATE INDEX"

/-- The error that there is no table of a name. -/
def unknownTable (name : String) : DatabaseError := storage (.unknownTable name)

/-- The error that there is a table of a name already. -/
def tableExists (name : String) : DatabaseError := storage (.tableExists name)

end DatabaseError

end ProvenTables
