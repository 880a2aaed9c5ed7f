import ProvenTables.Timestamp.Basic
import ProvenTables.Text.Blank
import ProvenTables.Text.Numeral

/-!
# Timestamps as text

A timestamp is written as `YYYY-MM-DDThh:mm:ssZ`, with a fraction of three, six or nine digits if it
is not a whole second and a signed year outside 0 to 9999. It is read in that form with an offset,
or without one as a date and a time, a date and a time to the minute, or a date.
-/

namespace ProvenTables.Timestamp

open Text

/-- A year in four digits, with a sign if it is not among 0 to 9999. -/
def renderYear (year : Int) : List Char :=
  if 0 ≤ year ∧ year ≤ 9999 then paddedDigits 4 year.toNat
  else (if year < 0 then '-' else '+') :: paddedDigits 4 year.natAbs

/-- The fraction of a second in the fewest of three, six and nine digits. -/
def renderFraction (nanos : Nat) : List Char :=
  if nanos = 0 then []
  else if nanos % 10 ^ 6 = 0 then '.' :: paddedDigits 3 (nanos / 10 ^ 6)
  else if nanos % 10 ^ 3 = 0 then '.' :: paddedDigits 6 (nanos / 10 ^ 3)
  else '.' :: paddedDigits 9 nanos

/-- The characters of a moment, with a fraction of the second if it has one. -/
def chars (t : Timestamp) : List Char :=
  let s := t.second % 60 + t.nanos / 10 ^ 9
  renderYear t.date.year ++ '-' :: (paddedDigits 2 t.date.month ++
    '-' :: (paddedDigits 2 t.date.day ++ 'T' :: (paddedDigits 2 (t.second / 3600) ++
    ':' :: (paddedDigits 2 (t.second / 60 % 60) ++ ':' :: (paddedDigits 2 s ++
    (renderFraction (t.nanos % 10 ^ 9) ++ ['Z']))))))

/-- The text of a moment. -/
def render (t : Timestamp) : String := String.ofList t.chars

/-- Between `least` and `most` digits at the start, as many as there are. -/
def digitField? (least most : Nat) (cs : List Char) : Option (Nat × List Char) :=
  let ds := (cs.take most).takeWhile Char.isDigit
  if ds.length < least then none else some (Nat.ofDigitChars 10 ds 0, cs.drop ds.length)

/-- A fraction of a second in nanoseconds; digits after the ninth do not count. -/
def fraction? : List Char → Option (Nat × List Char)
  | '.' :: r =>
    let ds := r.takeWhile Char.isDigit
    if ds.isEmpty then none
    else
      let nine := ds.take 9
      some (Nat.ofDigitChars 10 nine 0 * 10 ^ (9 - nine.length), r.drop ds.length)
  | r => some (0, r)

/-- An offset from UTC in minutes: `Z`, or a sign, two digits of hours and two of minutes. -/
def offset? : List Char → Option (Int × List Char)
  | [] => none
  | c :: r =>
    if c = 'Z' ∨ c = 'z' then some (0, r)
    else if c = '+' ∨ c = '-' ∨ c = '−' then do
      let (h, r) ← digitField? 2 2 r
      let r ← after? [':'] r
      let (m, r) ← digitField? 2 2 r
      if h < 24 ∧ m < 60 then
        let minutes : Int := h * 60 + m
        some (if c = '+' then minutes else -minutes, r)
      else none
    else none

/-- The moment that characters write with an offset, which is taken off. -/
def readWithOffset? (cs : List Char) : Option Timestamp := do
  let (year, r) ← digitField? 4 4 cs
  let r ← after? ['-'] r
  let (month, r) ← digitField? 2 2 r
  let r ← after? ['-'] r
  let (day, r) ← digitField? 2 2 r
  let r ← match r with
    | c :: r => if c = 'T' ∨ c = 't' ∨ c = ' ' then some r else none
    | [] => none
  let (hour, r) ← digitField? 2 2 r
  let r ← after? [':'] r
  let (minute, r) ← digitField? 2 2 r
  let r ← after? [':'] r
  let (second, r) ← digitField? 2 2 r
  let (nanos, r) ← fraction? r
  let (minutes, r) ← offset? r
  if !r.isEmpty then none
  else
    let date ← Date.of? year month day
    let t ← ofClock? date hour minute second nanos
    t.minus? minutes

/-- One or two digits, after any blanks. -/
def looseField? (cs : List Char) : Option (Nat × List Char) := digitField? 1 2 (trimLeft cs)

/-- A year after any blanks: up to four digits, or a sign and any number of digits. -/
def looseYear? (cs : List Char) : Option (Int × List Char) :=
  match trimLeft cs with
  | '-' :: r => (digitField? 1 r.length r).map fun p => (-(p.1 : Int), p.2)
  | '+' :: r => (digitField? 1 r.length r).map fun p => ((p.1 : Int), p.2)
  | r => (digitField? 1 4 r).map fun p => ((p.1 : Int), p.2)

/-- A date whose parts may have fewer digits. -/
def looseDate? (cs : List Char) : Option (Date × List Char) := do
  let (year, r) ← looseYear? cs
  let r ← after? ['-'] r
  let (month, r) ← looseField? r
  let r ← after? ['-'] r
  let (day, r) ← looseField? r
  let date ← Date.of? year month day
  return (date, r)

/-- A clock time after a date: hours, minutes and, if asked for, seconds with a fraction. -/
def looseTime? (date : Date) (seconds : Bool) (cs : List Char) : Option Timestamp := do
  let (hour, r) ← looseField? cs
  let r ← after? [':'] r
  let (minute, r) ← looseField? r
  if seconds then
    let r ← after? [':'] r
    let (second, r) ← looseField? r
    let (nanos, r) ← fraction? r
    if r.isEmpty then ofClock? date hour minute second nanos else none
  else if r.isEmpty then ofClock? date hour minute 0 0 else none

/-- A date and time without offset, or a date alone. -/
def readWithoutOffset? (cs : List Char) : Option Timestamp := do
  let (date, r) ← looseDate? cs
  match r with
  | [] => ofClock? date 0 0 0 0
  | 'T' :: time => looseTime? date true time <|> looseTime? date false time
  | time => looseTime? date true time

/-- The timestamp of a text, blanks at the ends apart. -/
def read? (s : String) : Option Timestamp :=
  let cs := trim s.toList
  readWithOffset? cs <|> readWithoutOffset? cs

end ProvenTables.Timestamp
