import ProvenTables.Json.Basic

/-!
# Records

A record is an object of fields with fixed names, of which no name occurs twice and others are
ignored, or the array of the fields in their fixed order.
-/

namespace ProvenTables.Json

/-- The fields of a record in the order in which they stand. An item of an array beyond the last
name has the empty name. -/
def recordFields? (names : List String) : Json → Option (List (String × Json))
  | obj fields =>
    let known := fields.filter (·.1 ∈ names)
    if (known.map (·.1)).Nodup then some known else none
  | arr items => some ((names ++ List.replicate (items.length - names.length) "").zip items)
  | _ => none

/-- The values of a record with a field for each name; fields that may be missing come last. -/
def record? (names : List String) (v : Json) : Option (List (Option Json)) := do
  let fields ← v.recordFields? names
  if fields.all fun f => f.1 ∈ names then
    return names.map fun n => (fields.find? (·.1 = n)).map (·.2)
  else none

/-- The list of texts that a document is, if it is one. -/
def strs? (v : Json) : Option (List String) := v.arr?.bind fun items => items.mapM str?

/-- The fields of an object, of which the last of each name counts. -/
def map? {α : Type} (f : Json → Option α) : Json → Option (SortedMap α)
  | obj fields =>
    (fields.mapM fun p => (f p.2).map fun a => (p.1, a)).map SortedMap.ofList
  | _ => none

end ProvenTables.Json
