import ProvenTables.Toml.Basic

/-!
# Settings in TOML values
-/

namespace ProvenTables.Toml

/-- The text that a value is, if it is one. -/
def string? : Toml → Option String
  | string s => some s
  | _ => none

/-- The truth value that a value is, if it is one. -/
def boolean? : Toml → Option Bool
  | boolean b => some b
  | _ => none

/-- The number below a bound that a value is, if it is one. -/
def natBelow? (bound : Nat) : Toml → Option Nat
  | integer n => if 0 ≤ n ∧ n < bound then some n.toNat else none
  | _ => none

/-- The settings of a group: a table, or an array of the values in the order of the names. A date or
a time counts as a table without any of them. -/
def group? (names : List String) : Toml → Option Fields
  | table _ fields => some fields
  | array items => some (names.zip items)
  | moment => some []
  | _ => none

/-- One of some words: a string, or a table with the word as its only key and nothing under it. -/
def word? (words : List String) : Toml → Option String
  | string s => if s ∈ words then some s else none
  | table _ [(s, v)] =>
    match v with
    | table _ [] => if s ∈ words then some s else none
    | array [] => if s ∈ words then some s else none
    | _ => none
  | _ => none

/-- The value of a setting; one that is missing has a default. -/
def settingOr {α : Type} (fields : Fields) (name : String) (default : α)
    (decode : Toml → Option α) : Option α :=
  match get? fields name with
  | some v => decode v
  | none => some default

end ProvenTables.Toml
