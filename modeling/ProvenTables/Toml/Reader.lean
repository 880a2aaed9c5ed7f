import ProvenTables.Text.Blank
import ProvenTables.Text.Hex
import ProvenTables.Timestamp.Calendar
import ProvenTables.Toml.Basic

/-!
# Reading TOML

`read?` takes a text to the fields of its document. Arrays and tables between braces are nested at
most `maxDepth` deep, a key has at most `maxParts` parts, and integers have 64 bits.
-/

namespace ProvenTables.Toml

/-- The greatest number of arrays and inline tables around a value. -/
def maxDepth : Nat := 79

/-- The greatest number of parts of a key. -/
def maxParts : Nat := 79

/-- A blank within a line. -/
def isSpace (c : Char) : Bool := c == ' ' || c == '\t'

/-- The characters after the blanks at the front. -/
def skipSpace (cs : List Char) : List Char := cs.dropWhile isSpace

/-- Whether a character may stand in a comment or between quotes. -/
def isPlain (c : Char) : Bool := c == '\t' || (32 ≤ c.toNat && c.toNat != 127)

/-- The rest after a line break, if there is one. -/
def afterNewline? : List Char → Option (List Char)
  | '\n' :: r => some r
  | '\r' :: '\n' :: r => some r
  | _ => none

/-- Drops blanks and line breaks. -/
def skipBlankLines : (fuel : Nat) → List Char → List Char
  | 0, cs => cs
  | fuel + 1, cs =>
    match afterNewline? (skipSpace cs) with
    | some r => skipBlankLines fuel r
    | none => skipSpace cs

/-- The characters after a comment, if there is one at the front. -/
def skipComment : List Char → List Char
  | '#' :: r => r.dropWhile isPlain
  | r => r

/-- The characters after the lines that are empty or only have a comment. -/
def skipLines : (fuel : Nat) → List Char → List Char
  | 0, cs => cs
  | fuel + 1, cs =>
    let r := skipComment (skipSpace cs)
    match afterNewline? r with
    | some r => skipLines fuel r
    | none => r

/-- Drops blanks, line breaks and comments, as many as there are. -/
def skipAll (cs : List Char) : List Char := skipLines cs.length cs

/-- The rest after the end of a line, with a comment before it. -/
def endLine? (cs : List Char) : Option (List Char) :=
  match skipComment (skipSpace cs) with
  | [] => some []
  | r => afterNewline? r

/-! ## Strings -/

/-- The character of a code point in hexadecimal digits. -/
def scalar? (digits : List Char) : Option Char := do
  let values ← digits.mapM Text.hexValue?
  let n := values.foldl (fun n d => 16 * n + d) 0
  if n < 0xD800 ∨ (0xE000 ≤ n ∧ n < 0x110000) then some (Char.ofNat n) else none

/-- The character that stands after a backslash, and the rest. -/
def readEscape? : List Char → Option (Char × List Char)
  | 'b' :: r => some ('\x08', r)
  | 't' :: r => some ('\t', r)
  | 'n' :: r => some ('\n', r)
  | 'f' :: r => some ('\x0c', r)
  | 'r' :: r => some ('\r', r)
  | '"' :: r => some ('"', r)
  | '\\' :: r => some ('\\', r)
  | 'u' :: r => if 4 ≤ r.length then (scalar? (r.take 4)).map (·, r.drop 4) else none
  | 'U' :: r => if 8 ≤ r.length then (scalar? (r.take 8)).map (·, r.drop 8) else none
  | _ => none

/-- The rest of a string on one line, up to its quote. -/
def readLine? (quote : Char) : (fuel : Nat) → List Char → Option (List Char × List Char)
  | 0, _ => none
  | _, [] => none
  | fuel + 1, c :: r =>
    if c = quote then some ([], r)
    else if quote = '"' ∧ c = '\\' then do
      let (e, r) ← readEscape? r
      let (cs, r) ← readLine? quote fuel r
      return (e :: cs, r)
    else if isPlain c then (readLine? quote fuel r).map fun p => (c :: p.1, p.2)
    else none

/-- The rest of a string over several lines, up to three quotes; two more may stand before them. -/
def readLines? (quote : Char) : (fuel : Nat) → List Char → Option (List Char × List Char)
  | 0, _ => none
  | fuel + 1, cs =>
    let quotes := min 5 (cs.takeWhile (· == quote)).length
    if 3 ≤ quotes then some (List.replicate (quotes - 3) quote, cs.drop quotes)
    else
      match afterNewline? cs with
      | some r => (readLines? quote fuel r).map fun p => ('\n' :: p.1, p.2)
      | none =>
        match cs with
        | [] => none
        | c :: r =>
          if quote = '"' ∧ c = '\\' then
            match afterNewline? (skipSpace r) with
            | some r => readLines? quote fuel (skipBlankLines r.length r)
            | none => do
              let (e, r) ← readEscape? r
              let (cs, r) ← readLines? quote fuel r
              return (e :: cs, r)
          else if isPlain c then (readLines? quote fuel r).map fun p => (c :: p.1, p.2)
          else none

/-- A string, after its first quote. -/
def readString? (quote : Char) (cs : List Char) : Option (String × List Char) := do
  let (content, r) ←
    match Text.after? [quote, quote] cs with
    | some r => readLines? quote (r.length + 1) ((afterNewline? r).getD r)
    | none => readLine? quote (cs.length + 1) cs
  return (String.ofList content, r)

/-! ## Keys -/

/-- A character of a key without quotes. -/
def isBareKey (c : Char) : Bool := c.isAlphanum || c == '_' || c == '-'

/-- One part of a key. -/
def readSimpleKey? : List Char → Option (String × List Char)
  | '"' :: r => (readLine? '"' (r.length + 1) r).map fun p => (String.ofList p.1, p.2)
  | '\'' :: r => (readLine? '\'' (r.length + 1) r).map fun p => (String.ofList p.1, p.2)
  | cs =>
    let name := cs.takeWhile isBareKey
    if name.isEmpty then none else some (String.ofList name, cs.dropWhile isBareKey)

/-- A key of at most `parts` parts: the parts before the last one, the last one, and the rest. -/
def readKey? : (parts : Nat) → List Char → Option ((List String × String) × List Char)
  | 0, _ => none
  | parts + 1, cs => do
    let (part, r) ← readSimpleKey? (skipSpace cs)
    match skipSpace r with
    | '.' :: r =>
      let ((path, key), r) ← readKey? parts r
      return ((part :: path, key), r)
    | r => return (([], part), r)

/-! ## Numbers, dates and times -/

/-- Digits, single underscores between them dropped. -/
def readDigits? (isDigit : Char → Bool) : (fuel : Nat) → List Char → Option (List Char × List Char)
  | 0, _ => none
  | _, [] => none
  | fuel + 1, c :: r =>
    if !isDigit c then none
    else
      let next := match r with
        | '_' :: r => r
        | r => r
      match readDigits? isDigit fuel next with
      | some (ds, rest) => some (c :: ds, rest)
      | none => some ([c], r)

/-- The number of digits in a base. -/
def numberOf (base : Nat) (ds : List Char) : Nat :=
  ds.foldl (fun n c => base * n + (Text.hexValue? c).getD 0) 0

/-- An integer of 64 bits. -/
def integer? (n : Int) : Option Toml := if -2 ^ 63 ≤ n ∧ n < 2 ^ 63 then some (.integer n) else none

/-- An integer in another base than ten, after its mark. -/
def readBased? (base : Nat) (isDigit : Char → Bool) (cs : List Char) :
    Option (Toml × List Char) := do
  let (ds, r) ← readDigits? isDigit (cs.length + 1) cs
  return (← integer? (numberOf base ds), r)

/-- The fraction of a float: none, or its digits. -/
def readFraction? : List Char → Option (Option (List Char) × List Char)
  | '.' :: r => do
    let (ds, r) ← readDigits? Char.isDigit (r.length + 1) r
    return (some ds, r)
  | r => some (none, r)

/-- The exponent of a float, if it has one. -/
def readExponent? : List Char → Option (Option Int × List Char)
  | [] => some (none, [])
  | c :: r =>
    if c = 'e' ∨ c = 'E' then do
      let (negative, r) := match r with
        | '-' :: r => (true, r)
        | '+' :: r => (false, r)
        | r => (false, r)
      let (ds, r) ← readDigits? Char.isDigit (r.length + 1) r
      let n : Int := numberOf 10 ds
      return (some (if negative then -n else n), r)
    else some (none, c :: r)

/-- A decimal integer or a float, after its sign. -/
def readUnsigned? (negative : Bool) (cs : List Char) : Option (Toml × List Char) := do
  let (ds, r) ← readDigits? Char.isDigit (cs.length + 1) cs
  let (whole, r) := match ds with
    | '0' :: _ => (['0'], cs.drop 1)
    | ds => (ds, r)
  let (fraction, r) ← readFraction? r
  let (exponent, r) ← readExponent? r
  match fraction, exponent with
  | none, none =>
    let n : Int := numberOf 10 whole
    return (← integer? (if negative then -n else n), r)
  | fraction, exponent =>
    let part := fraction.getD []
    let x := Binary64.ofDecimal negative
      ⟨numberOf 10 (whole ++ part), exponent.getD 0 - part.length⟩
    if x = .infinity false then none else return (.float x, r)

/-- A number, with its sign or its mark. -/
def readNumber? (cs : List Char) : Option (Toml × List Char) :=
  match cs with
  | '0' :: 'x' :: r => readBased? 16 (fun c => (Text.hexValue? c).isSome) r
  | '0' :: 'o' :: r => readBased? 8 (fun c => '0' ≤ c && c ≤ '7') r
  | '0' :: 'b' :: r => readBased? 2 (fun c => c == '0' || c == '1') r
  | cs =>
    let (negative, r) := match cs with
      | '-' :: r => (true, r)
      | '+' :: r => (false, r)
      | r => (false, r)
    match r with
    | 'i' :: 'n' :: 'f' :: r => some (.float (.infinity negative), r)
    | 'n' :: 'a' :: 'n' :: r => some (.float .nan, r)
    | r => readUnsigned? negative r

/-- A number of a fixed count of digits. -/
def readFixed? (count : Nat) (cs : List Char) : Option (Nat × List Char) :=
  let ds := cs.take count
  if ds.length = count ∧ ds.all Char.isDigit then some (numberOf 10 ds, cs.drop count) else none

/-- What follows the date at the front of characters, if there is a day. -/
def afterDate? (cs : List Char) : Option (List Char) := do
  let (year, r) ← readFixed? 4 cs
  let (month, r) ← readFixed? 2 (← Text.after? ['-'] r)
  let (day, r) ← readFixed? 2 (← Text.after? ['-'] r)
  if 1 ≤ month ∧ month ≤ 12 ∧ 1 ≤ day ∧ day ≤ Calendar.daysInMonth year month then some r else none

/-- The rest after hours and minutes. -/
def afterMinutes? (cs : List Char) : Option (List Char) := do
  let (hour, r) ← readFixed? 2 cs
  let (minute, r) ← readFixed? 2 (← Text.after? [':'] r)
  if hour ≤ 23 ∧ minute ≤ 59 then some r else none

/-- What follows the time at the front of characters, if there is one. -/
def afterTime? (cs : List Char) : Option (List Char) := do
  let (second, r) ← readFixed? 2 (← Text.after? [':'] (← afterMinutes? cs))
  if 60 < second then none
  else
    match r with
    | '.' :: r =>
      if (r.takeWhile Char.isDigit).isEmpty then none else some (r.dropWhile Char.isDigit)
    | r => some r

/-- The rest after an offset, which may be missing. -/
def afterOffset? : List Char → Option (List Char)
  | 'Z' :: r => some r
  | 'z' :: r => some r
  | '+' :: r => afterMinutes? r
  | '-' :: r => afterMinutes? r
  | r => some r

/-- The rest after a time and its offset that belong to a date, which may be missing. -/
def afterTimeOfDate? : List Char → Option (List Char)
  | c :: r =>
    if c = 'T' ∨ c = 't' ∨ c = ' ' then
      match afterTime? r with
      | some r => afterOffset? r
      | none => if c = ' ' then some (c :: r) else none
    else some (c :: r)
  | [] => some []

/-- Whether characters start as a date does. -/
def beginsDate (cs : List Char) : Bool :=
  match readFixed? 4 cs with
  | some (_, '-' :: _) => true
  | _ => false

/-- Whether characters start as a time does. -/
def beginsTime (cs : List Char) : Bool :=
  match readFixed? 2 cs with
  | some (_, ':' :: _) => true
  | _ => false

/-- A number, a date or a time. -/
def readQuantity? (cs : List Char) : Option (Toml × List Char) :=
  if beginsDate cs then (afterDate? cs).bind fun r => (afterTimeOfDate? r).map (.moment, ·)
  else if beginsTime cs then (afterTime? cs).map (.moment, ·)
  else readNumber? cs

/-! ## Values -/

mutual

/-- A value, inside at most `depth` more arrays and inline tables. -/
def readValue? : (fuel depth : Nat) → List Char → Option (Toml × List Char)
  | 0, _, _ => none
  | fuel + 1, depth, cs =>
    match cs with
    | '"' :: r => (readString? '"' r).map fun p => (.string p.1, p.2)
    | '\'' :: r => (readString? '\'' r).map fun p => (.string p.1, p.2)
    | 't' :: 'r' :: 'u' :: 'e' :: r => some (.boolean true, r)
    | 'f' :: 'a' :: 'l' :: 's' :: 'e' :: r => some (.boolean false, r)
    | '[' :: r =>
      match depth with
      | 0 => none
      | depth + 1 => (readItems? fuel depth r).map fun p => (.array p.1, p.2)
    | '{' :: r =>
      match depth with
      | 0 => none
      | depth + 1 =>
        match skipSpace r with
        | '}' :: r => some (.table .inline [], r)
        | r => (readFields? fuel depth [] r).map fun p => (.table .inline p.1, p.2)
    | cs => readQuantity? cs

/-- The items of an array up to its end; a comma may follow the last. -/
def readItems? : (fuel depth : Nat) → List Char → Option (List Toml × List Char)
  | 0, _, _ => none
  | fuel + 1, depth, cs =>
    match skipAll cs with
    | ']' :: r => some ([], r)
    | r => do
      let (v, r) ← readValue? fuel depth r
      match skipAll r with
      | ']' :: r => return ([v], r)
      | ',' :: r =>
        let (vs, r) ← readItems? fuel depth r
        return (v :: vs, r)
      | _ => none

/-- The fields of an inline table up to its end, on top of those that have been read. -/
def readFields? : (fuel depth : Nat) → Fields → List Char → Option (Fields × List Char)
  | 0, _, _, _ => none
  | fuel + 1, depth, fields, cs => do
    let ((path, key), r) ← readKey? maxParts cs
    match r with
    | '=' :: r =>
      let (v, r) ← readValue? fuel depth (skipSpace r)
      let (_, fields) ← addDotted path key v .inline fields
      match skipSpace r with
      | '}' :: r => return (fields, r)
      | ',' :: r => readFields? fuel depth fields r
      | _ => none
    | _ => none

end

/-! ## Documents -/

/-- The lines of a document; `place` is the path of the table that they belong to. -/
def readDocument? : (fuel : Nat) → (place : List String) → Fields → List Char → Option Fields
  | 0, _, _, _ => none
  | fuel + 1, place, fields, cs =>
    match skipAll cs with
    | [] => some fields
    | '[' :: '[' :: r => do
      let ((path, key), r) ← readKey? maxParts r
      let r ← endLine? (← Text.after? [']', ']'] r)
      readDocument? fuel (path ++ [key]) (← openItem path key fields) r
    | '[' :: r => do
      let ((path, key), r) ← readKey? maxParts r
      let r ← endLine? (← Text.after? [']'] r)
      readDocument? fuel (path ++ [key]) (← openTable path key fields) r
    | r => do
      let ((path, key), r) ← readKey? maxParts r
      match r with
      | '=' :: r =>
        let (v, r) ← readValue? (r.length + 1) maxDepth (skipSpace r)
        readDocument? fuel place (← addAt place path key v fields) (← endLine? r)
      | _ => none

/-- The fields of a file, or none if it is not well-formed. -/
def read? (s : String) : Option Fields :=
  let cs := match s.toList with
    | '\uFEFF' :: cs => cs
    | cs => cs
  readDocument? (cs.length + 1) [] [] cs

end ProvenTables.Toml
