import ProvenTables.Binary64.Decimal
import ProvenTables.Text.Numeral

/-!
# Numbers as text

A number is written with the digits of its shortest decimal; a `FloatStyle` says where positional
notation ends and how an exponent looks. Numbers are read in the usual forms, with sign, fraction
and exponent.
-/

namespace ProvenTables

/-- How a number is laid out. -/
structure FloatStyle where
  /-- The least decimal magnitude written positionally. -/
  plainFrom : Int
  /-- The least decimal magnitude above that range. -/
  plainBelow : Int
  /-- Whether a positive exponent has a sign. -/
  exponentPlus : Bool
  /-- Whether a whole number written positionally has a fraction of zero. -/
  wholeFraction : Bool
  /-- The choice between two equally near decimals. -/
  tie : Tie

namespace FloatStyle

/-- Numbers in texts: positional from `1e-4` to below `1e16`, otherwise with a bare exponent. -/
def text : FloatStyle := ⟨-4, 16, false, true, .up⟩

/-- Numbers in JSON: positional from `1e-5` to below `1e16`, otherwise with a signed exponent. -/
def json : FloatStyle := ⟨-5, 16, true, true, .toEven⟩

/-- Numbers in full: always positional, and whole numbers without a fraction. -/
def full : FloatStyle := ⟨-400, 400, false, false, .up⟩

end FloatStyle

namespace Binary64

/-- Digits with the point after the first `point` of them, and zeros where digits are missing. -/
def positional (style : FloatStyle) (ds : List Char) (point : Int) : List Char :=
  if point ≤ 0 then '0' :: '.' :: (List.replicate (-point).toNat '0' ++ ds)
  else
    let whole := ds.take point.toNat ++ List.replicate (point.toNat - ds.length) '0'
    let part := ds.drop point.toNat
    if !part.isEmpty then whole ++ '.' :: part
    else if style.wholeFraction then whole ++ ['.', '0']
    else whole

/-- Digits with a point behind the first one and an exponent. -/
def scientific (style : FloatStyle) (ds : List Char) (exponent : Int) : List Char :=
  let mantissa := match ds with
    | d :: r@(_ :: _) => d :: '.' :: r
    | ds => ds
  let sign := if exponent < 0 then ['-'] else if style.exponentPlus then ['+'] else []
  mantissa ++ 'e' :: (sign ++ Text.digits exponent.natAbs)

/-- The digits of a finite number and the place of the point among them. -/
def shortestDigits (tie : Tie) (x : Binary64) : List Char × Int :=
  let d := x.shortestDecimal tie
  let ds := Text.digits d.coefficient
  let kept := (ds.reverse.dropWhile (· == '0')).reverse
  (if kept.isEmpty then ['0'] else kept, d.exponent + ds.length)

/-- The text of a number in a style. -/
def render (style : FloatStyle) (x : Binary64) : String :=
  if x.isNaN then "NaN"
  else
    let sign := if x.isNegative then ['-'] else []
    let body :=
      if !x.isFinite then ['i', 'n', 'f']
      else
        let (ds, point) := x.shortestDigits style.tie
        let magnitude := if x.isZero then 0 else point - 1
        if style.plainFrom ≤ magnitude ∧ magnitude < style.plainBelow then
          positional style ds (magnitude + 1)
        else scientific style ds magnitude
    String.ofList (sign ++ body)

/-- A run of digits and the rest. -/
def spanDigits (cs : List Char) : List Char × List Char :=
  (cs.takeWhile Char.isDigit, cs.dropWhile Char.isDigit)

/-- The exponent of a number: `e`, an optional sign and digits, or nothing. -/
def readExponent? : List Char → Option Int
  | [] => some 0
  | c :: cs => if c = 'e' ∨ c = 'E' then Text.readInt? cs else none

/-- An unsigned number: digits, of which a point may stand before, among or after, and an
exponent. -/
def readUnsigned? (negative : Bool) (cs : List Char) : Option Binary64 :=
  let (whole, r) := spanDigits cs
  let (part, r) := match r with
    | '.' :: r => spanDigits r
    | r => ([], r)
  if whole.isEmpty && part.isEmpty then none
  else (readExponent? r).map fun e =>
    ofDecimal negative ⟨Nat.ofDigitChars 10 (whole ++ part) 0, e - part.length⟩

/-- An unsigned number or one of the words for infinity and NaN, in any case. -/
def readMagnitude? (negative : Bool) (cs : List Char) : Option Binary64 :=
  let word := String.ofList (cs.map Char.toLower)
  if word = "inf" ∨ word = "infinity" then some (infinity negative)
  else if word = "nan" then some (if negative then nan.negate else nan)
  else readUnsigned? negative cs

/-- The number of a text: an optional sign and an unsigned number or word. A number too large for
the format is infinite. -/
def read? : List Char → Option Binary64
  | '-' :: cs => readMagnitude? true cs
  | '+' :: cs => readMagnitude? false cs
  | cs => readMagnitude? false cs

/-- The finite number that characters write, if they write one. -/
def readFinite? (cs : List Char) : Option Binary64 := (read? cs).filter isFinite

end Binary64

end ProvenTables
