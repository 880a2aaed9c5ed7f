import ProvenTables.ErrorCode
import ProvenTables.Storage.Address
import ProvenTables.Table

/-!
# Storage errors
-/

namespace ProvenTables

/-- Why a stored object or a payload is not the data it should be. -/
inductive DataError where
  /-- Not JSON, or JSON of another shape. -/
  | malformed
  | unknownType (cause : UnknownType)
  | untypedColumn (column : String)
  | rowLength (cells columns : Nat)
  | cell (column : String) (cause : Mismatch)
  | schema (cause : TableError)
  /-- An address under which nothing is stored, since it is no digest. -/
  | notDigest (address : Address)

/-- What a client reads about data that cannot be read. -/
def DataError.message : DataError → String
  | malformed => "malformed object"
  | unknownType cause => cause.message
  | untypedColumn column => "column '" ++ column ++ "' has no declared type"
  | rowLength cells columns =>
    "row has " ++ toString cells ++ " cells, schema has " ++ toString columns ++ " columns"
  | cell column cause => "column '" ++ column ++ "': " ++ cause.message
  | schema cause => cause.message
  | notDigest address => "refusing to store non-digest address " ++ address.text

/-- Why a request to a store or a registry fails. -/
inductive StorageError where
  | notFound (address : Address)
  /-- A read that may succeed later. Without a reason the medium failed. -/
  | transient (address : Address) (reason : Option String)
  | data (cause : DataError)
  | io
  | unknownTable (name : String)
  | tableExists (name : String)
  | conflict (table : String) (expected actual : Address)

namespace StorageError

/-- The code that an error is reported with. -/
def code : StorageError → ErrorCode
  | notFound _ => .notFound
  | transient _ _ => .transientFetch
  | data _ => .encoding
  | io => .io
  | unknownTable _ => .unknownTable
  | tableExists _ => .tableExists
  | conflict _ _ _ => .sequenceConflict

/-- What a client reads about an error. -/
def message : StorageError → String
  | notFound address => "object not found: " ++ address.text
  | transient address reason =>
    "transient fetch error for " ++ address.text ++ ": " ++ reason.getD "read failed"
  | data cause => "encoding error: " ++ cause.message
  | io => "I/O error: write failed"
  | unknownTable name => "table not found: " ++ name
  | tableExists name => "table already exists: " ++ name
  | conflict table expected actual =>
    "sequence for '" ++ table ++ "' moved: expected " ++ expected.text ++ ", found " ++ actual.text

/-- Whether the same request may succeed later. -/
def isTransient : StorageError → Bool
  | transient _ _ => true
  | _ => false

end StorageError

end ProvenTables
