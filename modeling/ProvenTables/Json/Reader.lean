import ProvenTables.Json.Basic
import ProvenTables.Binary64.Notation
import ProvenTables.Text.Hex

/-!
# Reading JSON

`read?` takes a whole text to the value as it stands there, and `parse?` to its normal form. At most
`maxDepth` containers are nested, a number is finite, and the surrogates in escapes come in pairs.
-/

namespace ProvenTables.Json

/-- The greatest number of containers around each other. -/
def maxDepth : Nat := 127

/-- The blanks between the parts of a document. -/
def isSpace (c : Char) : Bool := c == ' ' || c == '\n' || c == '\t' || c == '\r'

/-- The characters after the blanks at the front. -/
def skipSpace (cs : List Char) : List Char := cs.dropWhile isSpace

/-- The character a letter stands for after a backslash. -/
def unescape? (c : Char) : Option Char :=
  if c = '"' ∨ c = '\\' ∨ c = '/' then some c
  else if c = 'b' then some '\x08'
  else if c = 'f' then some '\x0c'
  else if c = 'n' then some '\n'
  else if c = 'r' then some '\r'
  else if c = 't' then some '\t'
  else none

/-- The number of four hexadecimal digits. -/
def codeUnit? (a b c d : Char) : Option Nat := do
  let a ← Text.hexValue? a
  let b ← Text.hexValue? b
  let c ← Text.hexValue? c
  let d ← Text.hexValue? d
  return ((a * 16 + b) * 16 + c) * 16 + d

/-- The content of a string literal after its opening quote, and the rest after the closing one. -/
def readString? : List Char → Option (List Char × List Char)
  | [] => none
  | '"' :: r => some ([], r)
  | '\\' :: 'u' :: a :: b :: c :: d :: r =>
    match codeUnit? a b c d with
    | none => none
    | some hi =>
      if 0xD800 ≤ hi ∧ hi < 0xDC00 then
        match r with
        | '\\' :: 'u' :: e :: f :: g :: h :: r =>
          match codeUnit? e f g h with
          | none => none
          | some lo =>
            if 0xDC00 ≤ lo ∧ lo < 0xE000 then
              (readString? r).map fun p =>
                (Char.ofNat (0x10000 + (hi - 0xD800) * 0x400 + (lo - 0xDC00)) :: p.1, p.2)
            else none
        | _ => none
      else if 0xDC00 ≤ hi ∧ hi < 0xE000 then none
      else (readString? r).map fun p => (Char.ofNat hi :: p.1, p.2)
  | '\\' :: c :: r =>
    match unescape? c with
    | none => none
    | some c => (readString? r).map fun p => (c :: p.1, p.2)
  | c :: r =>
    if c.toNat < 32 ∨ c = '\\' then none else (readString? r).map fun p => (c :: p.1, p.2)

/-- The fraction of a number, empty if there is none. -/
def readFraction? : List Char → Option (List Char × List Char)
  | '.' :: r =>
    let (ds, r) := Binary64.spanDigits r
    if ds.isEmpty then none else some (ds, r)
  | r => some ([], r)

/-- The exponent of a number, if it has one. -/
def readExponent? : List Char → Option (Option Int × List Char)
  | [] => some (none, [])
  | c :: r =>
    if c = 'e' ∨ c = 'E' then
      let (negative, r) := match r with
        | '-' :: r => (true, r)
        | '+' :: r => (false, r)
        | r => (false, r)
      let (ds, r) := Binary64.spanDigits r
      if ds.isEmpty then none
      else
        let n : Int := Nat.ofDigitChars 10 ds 0
        some (some (if negative then -n else n), r)
    else some (none, c :: r)

/-- The number with the given digits. Without fraction and exponent it is an integer if it fits into
64 bits; a negative zero does not. -/
def number? (negative : Bool) (whole part : List Char) (exponent : Option Int) :
    Option JsonNumber :=
  let n := Nat.ofDigitChars 10 (whole ++ part) 0
  let i : Int := if negative then -n else n
  if part.isEmpty ∧ exponent.isNone ∧ isWord i ∧ ¬(negative ∧ n = 0) then some (.int i)
  else
    let x := Binary64.ofDecimal negative ⟨n, exponent.getD 0 - part.length⟩
    if x.isFinite then some (.float x) else none

/-- Whether digits may stand before the point: at least one, and no zero before others. -/
def isWhole : List Char → Bool
  | [] => false
  | [_] => true
  | c :: _ => c != '0'

/-- The parts of a number as it is written. -/
structure Numeral where
  negative : Bool
  whole : List Char
  part : List Char
  exponent : Option Int

/-- The parts of a number at the start of a text, and the rest. -/
def readNumeral? (cs : List Char) : Option (Numeral × List Char) :=
  let (negative, r) := match cs with
    | '-' :: r => (true, r)
    | r => (false, r)
  let (whole, r) := Binary64.spanDigits r
  if !isWhole whole then none
  else do
    let (part, r) ← readFraction? r
    let (exponent, r) ← readExponent? r
    return (⟨negative, whole, part, exponent⟩, r)

/-- The number at the front of characters and what follows it. -/
def readNumber? (cs : List Char) : Option (JsonNumber × List Char) := do
  let (n, r) ← readNumeral? cs
  return (← number? n.negative n.whole n.part n.exponent, r)

/-- A field's name with the colon after it. -/
def readName? (cs : List Char) : Option (String × List Char) :=
  match skipSpace cs with
  | '"' :: r => do
    let (name, r) ← readString? r
    match skipSpace r with
    | ':' :: r => some (String.ofList name, r)
    | _ => none
  | _ => none

mutual

/-- A value at the start of a text, inside at most `depth` more containers, and the rest. -/
def readValue? : (fuel depth : Nat) → List Char → Option (Json × List Char)
  | 0, _, _ => none
  | fuel + 1, depth, cs =>
    match skipSpace cs with
    | 'n' :: 'u' :: 'l' :: 'l' :: r => some (null, r)
    | 't' :: 'r' :: 'u' :: 'e' :: r => some (bool true, r)
    | 'f' :: 'a' :: 'l' :: 's' :: 'e' :: r => some (bool false, r)
    | '"' :: r => (readString? r).map fun p => (str (String.ofList p.1), p.2)
    | '[' :: r =>
      match depth with
      | 0 => none
      | depth + 1 =>
        match skipSpace r with
        | ']' :: r => some (arr [], r)
        | r => do
          let (v, r) ← readValue? fuel depth r
          let (vs, r) ← readItems? fuel depth r
          return (arr (v :: vs), r)
    | '{' :: r =>
      match depth with
      | 0 => none
      | depth + 1 =>
        match skipSpace r with
        | '}' :: r => some (obj [], r)
        | r => do
          let (k, r) ← readName? r
          let (v, r) ← readValue? fuel depth r
          let (fs, r) ← readFields? fuel depth r
          return (obj ((k, v) :: fs), r)
    | r => (readNumber? r).map fun p => (num p.1, p.2)

/-- The items of an array after one of them, up to its end. -/
def readItems? : (fuel depth : Nat) → List Char → Option (List Json × List Char)
  | 0, _, _ => none
  | fuel + 1, depth, cs =>
    match skipSpace cs with
    | ']' :: r => some ([], r)
    | ',' :: r => do
      let (v, r) ← readValue? fuel depth r
      let (vs, r) ← readItems? fuel depth r
      return (v :: vs, r)
    | _ => none

/-- The fields of an object after one of them, up to its end. -/
def readFields? : (fuel depth : Nat) → List Char → Option (List (String × Json) × List Char)
  | 0, _, _ => none
  | fuel + 1, depth, cs =>
    match skipSpace cs with
    | '}' :: r => some ([], r)
    | ',' :: r => do
      let (k, r) ← readName? r
      let (v, r) ← readValue? fuel depth r
      let (fs, r) ← readFields? fuel depth r
      return ((k, v) :: fs, r)
    | _ => none

end

/-- The value of a whole text, with the fields of objects as they stand. -/
def read? (s : String) : Option Json :=
  let cs := s.toList
  match readValue? (cs.length + 1) maxDepth cs with
  | some (v, r) => if (skipSpace r).isEmpty then some v else none
  | none => none

/-- The value of a whole text in normal form. -/
def parse? (s : String) : Option Json := (read? s).map normalize

end ProvenTables.Json
