import ProvenTables.Text.Blank

/-!
# Content types

Whether the content type of a request announces JSON.
-/

namespace ProvenTables.Http

/-- The characters of the names of types and parameters. -/
def isTokenChar (c : Char) : Bool :=
  c.isAlphanum ||
    c ∈ ['!', '#', '$', '%', '&', '\'', '*', '+', '-', '.', '^', '_', '\x60', '|', '~']

/-- Whether a character may stand between quotes: a blank or a visible ASCII character. -/
def isQuotable (c : Char) : Bool := 32 ≤ c.toNat && c.toNat < 127

/-- The rest after a quoted text whose opening quote has been read. The text is not empty, so that
its first character may be a quote. -/
def afterQuoted? : List Char → Option (List Char)
  | [] => none
  | c :: r =>
    if !isQuotable c then none
    else
      match r.dropWhile fun c => isQuotable c && c != '"' with
      | '"' :: r => some r
      | _ => none

mutual

/-- Whether characters are parameters, each one after a semicolon, with a value that may be quoted. -/
def isParameters : (fuel : Nat) → List Char → Bool
  | 0, _ => false
  | fuel + 1, cs =>
    match cs.dropWhile (· == ' ') with
    | [] => true
    | cs =>
      let name := cs.takeWhile isTokenChar
      match cs.dropWhile isTokenChar with
      | '=' :: '"' :: r =>
        !name.isEmpty &&
          match afterQuoted? r with
          | some r => isNext fuel (r.dropWhile (· == ' '))
          | none => false
      | '=' :: r =>
        !name.isEmpty && (r.isEmpty || !(r.takeWhile isTokenChar).isEmpty) &&
          isNext fuel (r.dropWhile isTokenChar)
      | _ => false

/-- Whether a text is the end of a list of parameters or goes on with the next one. -/
def isNext : (fuel : Nat) → List Char → Bool
  | 0, _ => false
  | fuel + 1, cs =>
    match cs with
    | [] => true
    | ';' :: r => isParameters fuel r
    | _ => false

end

/-- The part of a subtype before its last `+`, and the one after it. -/
def splitSuffix (subtype : List Char) : List Char × Option (List Char) :=
  match (Text.splitBy (· == '+') subtype).reverse with
  | suffix :: part :: parts =>
    let before := List.intercalate ['+'] (part :: parts).reverse
    if before.isEmpty then (subtype, none) else (before, some suffix)
  | _ => (subtype, none)

/-- Whether a content type is JSON, or a format built on JSON. -/
def isJsonType (contentType : String) : Bool :=
  let cs := contentType.toList.map Char.toLower
  match cs.dropWhile (· != '/') with
  | '/' :: r =>
    let subtype := r.takeWhile (· != ';')
    let (name, suffix) := splitSuffix subtype
    cs.takeWhile (· != '/') == "application".toList && !subtype.isEmpty &&
      subtype.all isTokenChar && (name == "json".toList || suffix == some "json".toList) &&
      match r.dropWhile (· != ';') with
      | ';' :: parameters => isParameters (2 * parameters.length + 2) parameters
      | _ => true
  | _ => false

end ProvenTables.Http
