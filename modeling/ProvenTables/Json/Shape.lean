import ProvenTables.Json.Reader
import ProvenTables.Text.Blank

/-!
# Texts of a known shape

Reading of a text that should hold a value of a known shape. The first fault decides: a text may be
no JSON up to there, or it may be JSON of another shape. What no field of a record asks for is
passed over, so its numbers may be of any size and its containers nested to any depth.
-/

namespace ProvenTables.Json

/-! ## Passing over a value -/

/-- The rest after a string literal whose opening quote has been read; surrogates need not come in
pairs. -/
def skipString? : List Char → Option (List Char)
  | [] => none
  | '"' :: r => some r
  | '\\' :: 'u' :: a :: b :: c :: d :: r =>
    if (codeUnit? a b c d).isSome then skipString? r else none
  | '\\' :: c :: r => if (unescape? c).isSome then skipString? r else none
  | c :: r => if c.toNat < 32 ∨ c = '\\' then none else skipString? r

mutual

/-- What follows the value at the front of characters, if there is a value. -/
def skipValue? : (fuel : Nat) → List Char → Option (List Char)
  | 0, _ => none
  | fuel + 1, cs =>
    match skipSpace cs with
    | 'n' :: 'u' :: 'l' :: 'l' :: r => some r
    | 't' :: 'r' :: 'u' :: 'e' :: r => some r
    | 'f' :: 'a' :: 'l' :: 's' :: 'e' :: r => some r
    | '"' :: r => skipString? r
    | '[' :: r =>
      match skipSpace r with
      | ']' :: r => some r
      | r => do skipItems? fuel (← skipValue? fuel r)
    | '{' :: r =>
      match skipSpace r with
      | '}' :: r => some r
      | r => do skipFields? fuel (← skipField? fuel r)
    | r => (readNumeral? r).map (·.2)

/-- The rest after the items of an array that follow one of them. -/
def skipItems? : (fuel : Nat) → List Char → Option (List Char)
  | 0, _ => none
  | fuel + 1, cs =>
    match skipSpace cs with
    | ']' :: r => some r
    | ',' :: r => do skipItems? fuel (← skipValue? fuel r)
    | _ => none

/-- What follows the field at the front of characters, if there is a field. -/
def skipField? : (fuel : Nat) → List Char → Option (List Char)
  | 0, _ => none
  | fuel + 1, cs =>
    match skipSpace cs with
    | '"' :: r => do
      match skipSpace (← skipString? r) with
      | ':' :: r => skipValue? fuel r
      | _ => none
    | _ => none

/-- The rest after the fields of an object that follow one of them. -/
def skipFields? : (fuel : Nat) → List Char → Option (List Char)
  | 0, _ => none
  | fuel + 1, cs =>
    match skipSpace cs with
    | '}' :: r => some r
    | ',' :: r => do skipFields? fuel (← skipField? fuel r)
    | _ => none

end

/-! ## Shapes -/

/-- The shapes that a document can be required to have. -/
inductive Shape where
  | any
  | text
  /-- One of some texts. -/
  | name (names : List String)
  /-- True, false or null. -/
  | flag
  | list (item : Shape)
  | map (value : Shape)
  /-- An object of which no field occurs twice, or the array of the fields in order. Fields of other
  names are passed over. -/
  | record (required optional : List (String × Shape))

/-- A text is no document, or it is one that does not have its shape. -/
inductive Fault where
  | malformed
  | mistyped
  deriving DecidableEq

/-- The fault of a value that has another type than the one asked for. -/
def otherType : List Char → Fault
  | [] => .malformed
  | '[' :: _ => .mistyped
  | '{' :: _ => .mistyped
  | '"' :: r => if (readString? r).isSome then .mistyped else .malformed
  | 'n' :: r => if (Text.after? ['u', 'l', 'l'] r).isSome then .mistyped else .malformed
  | 't' :: r => if (Text.after? ['r', 'u', 'e'] r).isSome then .mistyped else .malformed
  | 'f' :: r => if (Text.after? ['a', 'l', 's', 'e'] r).isSome then .mistyped else .malformed
  | r => if (readNumber? r).isSome then .mistyped else .malformed

/-- A faulty text where nothing is read. -/
def orMalformed {α : Type} (o : Option α) : Except Fault α :=
  match o with
  | some a => .ok a
  | none => .error .malformed

/-- A string literal. -/
def takeText (cs : List Char) : Except Fault (String × List Char) :=
  match skipSpace cs with
  | '"' :: r => do
    let (s, r) ← orMalformed (readString? r)
    return (String.ofList s, r)
  | r => .error (otherType r)

/-- A colon. -/
def takeColon (cs : List Char) : Except Fault (List Char) :=
  match skipSpace cs with
  | ':' :: r => .ok r
  | _ => .error .malformed

/-- The name of the next field, or the end of the object; `more` tells whether a field has been
read. -/
def takeName (more : Bool) (cs : List Char) : Except Fault (Option String × List Char) :=
  match skipSpace cs, more with
  | '}' :: r, _ => .ok (none, r)
  | ',' :: r, true =>
    match skipSpace r with
    | '"' :: r => do
      let (s, r) ← orMalformed (readString? r)
      return (some (String.ofList s), r)
    | _ => .error .malformed
  | '"' :: r, false => do
    let (s, r) ← orMalformed (readString? r)
    return (some (String.ofList s), r)
  | _, _ => .error .malformed

/-- Whether another item follows in an array, and the text from there or from its end on; `more`
tells whether an item has been read. -/
def takeItem (more : Bool) (cs : List Char) : Except Fault (Bool × List Char) :=
  match skipSpace cs, more with
  | [], _ => .error .malformed
  | ']' :: r, _ => .ok (false, ']' :: r)
  | ',' :: r, true =>
    match skipSpace r with
    | [] => .error .malformed
    | ']' :: _ => .error .malformed
    | r => .ok (true, r)
  | r, false => .ok (true, r)
  | _, true => .error .malformed

/-- The end of a list, which must be the next thing that is read. -/
def takeEnd (cs : List Char) : Except Fault (List Char) :=
  match skipSpace cs with
  | ']' :: r => .ok r
  | _ => .error .malformed

/-- One container less around what follows. -/
def descend (depth : Nat) : Except Fault Nat :=
  match depth with
  | 0 => .error .malformed
  | depth + 1 => .ok depth

mutual

/-- A value of a shape, inside at most `depth` more containers. -/
def Shape.take : (fuel depth : Nat) → Shape → List Char → Except Fault (Json × List Char)
  | 0, _, _, _ => .error .malformed
  | fuel + 1, depth, shape, cs =>
    match shape with
    | .any => orMalformed (readValue? (cs.length + 1) depth cs)
    | .text => do
      let (s, r) ← takeText cs
      return (str s, r)
    | .name names => do
      let (s, r) ← takeText cs
      if s ∈ names then return (str s, r) else .error .mistyped
    | .flag =>
      match skipSpace cs with
      | 'n' :: r => do return (null, ← orMalformed (Text.after? ['u', 'l', 'l'] r))
      | 't' :: r => do return (bool true, ← orMalformed (Text.after? ['r', 'u', 'e'] r))
      | 'f' :: r => do return (bool false, ← orMalformed (Text.after? ['a', 'l', 's', 'e'] r))
      | r => .error (otherType r)
    | .list item =>
      match skipSpace cs with
      | '[' :: r => do
        let (items, r) ← takeItems fuel (← descend depth) item false r
        return (arr items, r)
      | r => .error (otherType r)
    | .map value =>
      match skipSpace cs with
      | '{' :: r => do
        let (fields, r) ← takeFields fuel (← descend depth) value false r
        return (obj fields, r)
      | r => .error (otherType r)
    | .record required optional =>
      match skipSpace cs with
      | '{' :: r => do
        let (fields, r) ←
          takeRecord fuel (← descend depth) (required ++ optional) (required.map (·.1)) [] false r
        return (obj fields, r)
      | '[' :: r => do
        let (fields, r) ←
          takeTuple fuel (← descend depth) (required ++ optional) (required.map (·.1)) false r
        return (obj fields, ← takeEnd r)
      | r => .error (otherType r)

/-- The items of an array up to its end. -/
def takeItems : (fuel depth : Nat) → Shape → (more : Bool) → List Char →
    Except Fault (List Json × List Char)
  | 0, _, _, _, _ => .error .malformed
  | fuel + 1, depth, item, more, cs => do
    match ← takeItem more cs with
    | (true, r) =>
      let (v, r) ← item.take fuel depth r
      let (vs, r) ← takeItems fuel depth item true r
      return (v :: vs, r)
    | (false, r) => return ([], ← takeEnd r)

/-- The fields of an object up to its end, all of one shape. -/
def takeFields : (fuel depth : Nat) → Shape → (more : Bool) → List Char →
    Except Fault (List (String × Json) × List Char)
  | 0, _, _, _, _ => .error .malformed
  | fuel + 1, depth, value, more, cs => do
    match ← takeName more cs with
    | (some name, r) =>
      let (v, r) ← value.take fuel depth (← takeColon r)
      let (fs, r) ← takeFields fuel depth value true r
      return ((name, v) :: fs, r)
    | (none, r) => return ([], r)

/-- The fields of a record up to its end, given those that have been read. -/
def takeRecord : (fuel depth : Nat) → (fields : List (String × Shape)) → (required : List String) →
    (read : List (String × Json)) → (more : Bool) → List Char →
    Except Fault (List (String × Json) × List Char)
  | 0, _, _, _, _, _, _ => .error .malformed
  | fuel + 1, depth, fields, required, read, more, cs => do
    match ← takeName more cs with
    | (some name, r) =>
      match fields.find? (·.1 = name) with
      | some (_, shape) =>
        if (read.find? (·.1 = name)).isSome then .error .mistyped
        else
          let (v, r) ← shape.take fuel depth (← takeColon r)
          takeRecord fuel depth fields required (read ++ [(name, v)]) true r
      | none =>
        let r ← takeColon r
        let r ← orMalformed (skipValue? (r.length + 1) r)
        takeRecord fuel depth fields required read true r
    | (none, r) =>
      if required.all fun n => (read.find? (·.1 = n)).isSome then return (read, r)
      else .error .mistyped

/-- The fields of a record in an array, up to the last field or the end of the array. -/
def takeTuple : (fuel depth : Nat) → (fields : List (String × Shape)) → (required : List String) →
    (more : Bool) → List Char → Except Fault (List (String × Json) × List Char)
  | 0, _, _, _, _, _ => .error .malformed
  | _ + 1, _, [], _, _, cs => .ok ([], cs)
  | fuel + 1, depth, (name, shape) :: fields, required, more, cs => do
    match ← takeItem more cs with
    | (true, r) =>
      let (v, r) ← shape.take fuel depth r
      let (fs, r) ← takeTuple fuel depth fields required true r
      return ((name, v) :: fs, r)
    | (false, r) => if name ∈ required then .error .mistyped else return ([], r)

end

/-- The value of a shape that a whole text holds, with the known fields of records. -/
def Shape.read (shape : Shape) (s : String) : Except Fault Json := do
  let cs := s.toList
  let (v, r) ← shape.take (2 * cs.length + 8) maxDepth cs
  if (skipSpace r).isEmpty then return v else .error .malformed

end ProvenTables.Json
