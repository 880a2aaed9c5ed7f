import ProvenTables.Binary64.Decimal

/-!
# TOML values

A document is a table. A table may be extended later only if it has been created on the way to
another one, so each table remembers how it was created.
-/

namespace ProvenTables

namespace Toml

/-- How a table was created. -/
inductive Origin where
  /-- By its own header. -/
  | header
  /-- By the header of a table in it. -/
  | implied
  /-- By dotted keys. -/
  | dotted
  /-- Between braces. -/
  | inline
  deriving DecidableEq

end Toml

open Toml

/-- A value of a configuration file. -/
inductive Toml where
  | string (s : String)
  | integer (n : Int)
  | float (x : Binary64)
  | boolean (b : Bool)
  /-- A date, a time or both. -/
  | moment
  | array (items : List Toml)
  | table (origin : Origin) (fields : List (String × Toml))
  /-- Tables that each have a header of their own. -/
  | tables (items : List (List (String × Toml)))

namespace Toml

/-- The fields of a table in the order in which they were created; no name occurs twice. -/
abbrev Fields := List (String × Toml)

/-- The value of a field, if there is one. -/
def get? (fields : Fields) (name : String) : Option Toml :=
  (fields.find? (·.1 = name)).map (·.2)

/-- Sets a field, at the end if it is new. -/
def set (fields : Fields) (name : String) (v : Toml) : Fields :=
  if (fields.find? (·.1 = name)).isSome then
    fields.map fun f => if f.1 = name then (name, v) else f
  else fields ++ [(name, v)]

/-- Changes the table at the end of a path, and creates the tables on the way. Dotted keys enter no
table that has a header. -/
def changeAt (dotted : Bool) (change : Origin → Fields → Option (Origin × Fields)) :
    List String → Origin → Fields → Option (Origin × Fields)
  | [], origin, fields => change origin fields
  | key :: path, origin, fields =>
    match get? fields key with
    | none => do
      let (o, inner) ← changeAt dotted change path (if dotted then .dotted else .implied) []
      return (origin, set fields key (.table o inner))
    | some (.table .inline _) => none
    | some (.table o inner) =>
      if dotted ∧ o = .header then none
      else do
        let (o, inner) ← changeAt dotted change path o inner
        return (origin, set fields key (.table o inner))
    | some (.tables items) =>
      match items.reverse with
      | [] => none
      | last :: before => do
        let (_, last) ← changeAt dotted change path .header last
        return (origin, set fields key (.tables (last :: before).reverse))
    | some _ => none

/-- Adds a field with a new name. -/
def addField (key : String) (v : Toml) (fields : Fields) : Option Fields :=
  if (get? fields key).isSome then none else some (fields ++ [(key, v)])

/-- Adds the field of a dotted key. The table that it goes into was created by dotted keys. -/
def addDotted (path : List String) (key : String) (v : Toml) (origin : Origin) (fields : Fields) :
    Option (Origin × Fields) :=
  changeAt true (fun o inner =>
    if path ≠ [] ∧ o ≠ .dotted then none
    else (addField key v inner).map fun inner => (o, inner)) path origin fields

/-- Opens the table of a header: a new one, or one that so far was only implied. -/
def openTable (path : List String) (key : String) (fields : Fields) : Option Fields :=
  (changeAt false (fun o inner =>
    match get? inner key with
    | none => some (o, set inner key (.table .header []))
    | some (.table .implied fs) => some (o, set inner key (.table .header fs))
    | some _ => none) path .header fields).map (·.2)

/-- Opens a new table among those with a header of the same name. -/
def openItem (path : List String) (key : String) (fields : Fields) : Option Fields :=
  (changeAt false (fun o inner =>
    match get? inner key with
    | none => some (o, set inner key (.tables [[]]))
    | some (.tables items) => some (o, set inner key (.tables (items ++ [[]])))
    | some _ => none) path .header fields).map (·.2)

/-- Adds the field of a key to the table at a path. -/
def addAt (place : List String) (path : List String) (key : String) (v : Toml) (fields : Fields) :
    Option Fields :=
  (changeAt false (addDotted path key v) place .header fields).map (·.2)

end Toml

end ProvenTables
