import ProvenTables.Binary64.Decimal
import ProvenTables.SortedMap

/-!
# JSON values

An object is the list of its fields. A value as it stands in a text may have its fields in any order
and a name twice; `normalize` sorts the fields of every object and keeps the last of each name.
-/

namespace ProvenTables

/-- A number: an integer of 64 bits, signed or unsigned, or a finite binary64 number. -/
inductive JsonNumber where
  | int (n : Int)
  | float (x : Binary64)
  deriving DecidableEq

/-- A document. -/
inductive Json where
  | null
  | bool (b : Bool)
  | num (n : JsonNumber)
  | str (s : String)
  | arr (items : List Json)
  | obj (fields : List (String × Json))

namespace Json

/-- The integers that are kept as integers. -/
def isWord (n : Int) : Bool := -2 ^ 63 ≤ n && n < 2 ^ 64

/-- The document of an integer. -/
def int (n : Int) : Json := num (.int n)

/-- The document of a natural number. -/
def nat (n : Nat) : Json := num (.int n)

/-- A number, or null for what JSON has no number for. -/
def float (x : Binary64) : Json := if x.isFinite then num (.float x) else null

/-- The document of a list of texts. -/
def strs (ss : List String) : Json := arr (ss.map str)

/-- The object of a sorted map. -/
def ofMap {α : Type} (f : α → Json) (m : SortedMap α) : Json := obj (m.map f).entries

mutual

/-- Sorts the fields of every object and keeps the last of each name. -/
def normalize : Json → Json
  | arr items => arr (normalizeItems items)
  | obj fields => obj (SortedMap.sortEntries (normalizeFields fields))
  | v => v

/-- Every document of a list is normalised. -/
def normalizeItems : List Json → List Json
  | [] => []
  | v :: vs => normalize v :: normalizeItems vs

/-- The value of every field is normalised. -/
def normalizeFields : List (String × Json) → List (String × Json)
  | [] => []
  | (k, v) :: fs => (k, normalize v) :: normalizeFields fs

end

/-- The integer of a value, if it has one in the signed 64-bit range. -/
def int64? : Json → Option Int
  | num (.int n) => if n < 2 ^ 63 then some n else none
  | _ => none

/-- The natural number of a value, if it is less than the bound. -/
def natBelow? (bound : Nat) : Json → Option Nat
  | num (.int n) => if 0 ≤ n ∧ n < bound then some n.toNat else none
  | _ => none

/-- The number nearest to the number of a value. -/
def float? : Json → Option Binary64
  | num (.int n) => some (Binary64.ofInt n)
  | num (.float x) => some x
  | _ => none

/-- The truth value that a document is, if it is one. -/
def bool? : Json → Option Bool
  | bool b => some b
  | _ => none

/-- The text that a document is, if it is one. -/
def str? : Json → Option String
  | str s => some s
  | _ => none

/-- The list that a document is, if it is one. -/
def arr? : Json → Option (List Json)
  | arr items => some items
  | _ => none

/-- The value of the last field of the name. -/
def field? (name : String) : Json → Option Json
  | obj fields => (fields.reverse.find? (·.1 = name)).map (·.2)
  | _ => none

end Json

end ProvenTables
