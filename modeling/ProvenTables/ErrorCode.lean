/-!
# Error codes

The stable codes under which failures are reported. The high byte of a code is its category.
-/

namespace ProvenTables

/-- The codes that errors are reported with. -/
inductive ErrorCode where
  | internal
  | invalidArgument
  | timeout
  | io
  | notFound
  | transientFetch
  | encoding
  | sequenceConflict
  | syntaxError
  | schemaError
  | columnMismatch
  | unknownTable
  | unknownColumn
  | typeConversion
  | tableExists
  | proofFailure
  deriving DecidableEq, Repr

namespace ErrorCode

/-- Every code, in increasing order of numbers. -/
def all : List ErrorCode :=
  [internal, invalidArgument, timeout, io, notFound, transientFetch, encoding, sequenceConflict,
    syntaxError, schemaError, columnMismatch, unknownTable, unknownColumn, typeConversion,
    tableExists, proofFailure]

/-- The number of a code on the wire. -/
def number : ErrorCode → Nat
  | internal => 0x0001
  | invalidArgument => 0x0003
  | timeout => 0x0004
  | io => 0x0100
  | notFound => 0x0200
  | transientFetch => 0x0201
  | encoding => 0x0202
  | sequenceConflict => 0x0203
  | syntaxError => 0x0600
  | schemaError => 0x0601
  | columnMismatch => 0x0602
  | unknownTable => 0x0603
  | unknownColumn => 0x0604
  | typeConversion => 0x0605
  | tableExists => 0x0606
  | proofFailure => 0x0700

/-- The name of a code. -/
def name : ErrorCode → String
  | internal => "Internal"
  | invalidArgument => "InvalidArgument"
  | timeout => "Timeout"
  | io => "Io"
  | notFound => "NotFound"
  | transientFetch => "TransientFetch"
  | encoding => "Encoding"
  | sequenceConflict => "SequenceConflict"
  | syntaxError => "SyntaxError"
  | schemaError => "SchemaError"
  | columnMismatch => "ColumnMismatch"
  | unknownTable => "UnknownTable"
  | unknownColumn => "UnknownColumn"
  | typeConversion => "TypeConversion"
  | tableExists => "TableExists"
  | proofFailure => "ProofFailure"

/-- The category that the high byte of the number stands for. -/
def category (c : ErrorCode) : String :=
  match c.number / 256 with
  | 0 => "General"
  | 1 => "I/O"
  | 2 => "Storage"
  | 6 => "Query"
  | 7 => "Proof"
  | _ => "Unknown"

/-- Whether the same operation may succeed when it is tried again. -/
def isRetryable : ErrorCode → Bool
  | transientFetch | timeout => true
  | _ => false

/-- The list of all codes misses none of them. -/
theorem mem_all (c : ErrorCode) : c ∈ all := by cases c <;> decide

end ErrorCode

end ProvenTables
