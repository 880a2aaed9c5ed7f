import ProvenTables.Text.Ligature
import ProvenTables.Text.Pictogram

/-!
# Width

The number of columns that a text takes in a fixed-width font. A character is measured by what
stands after it, since a selector, a skin tone or the rest of a ligature changes its width; so a
text is measured from its end to its start.
-/

namespace ProvenTables.Text

/-- What a text opens with, as far as it matters to the character before it. -/
inductive Opening
  | plain
  | lineFeed
  | ligature (e : LigatureEnd)
  /-- The Kirat Rai vowel sign e. -/
  | signE
  /-- The Kirat Rai vowel sign ai. -/
  | signAi
  | tone
  | flagLetter
  | flagLetters
  | pictogram
  /-- A joiner with a pictogram after it, and the keycap sign before both. -/
  | joined (keycap : Bool)
  | joinedFlagLetter
  | joinedFlagLetters (odd : Bool)
  /-- The end of a tag before a joined pictogram. -/
  | tagEnd
  | tagLetters (n : Nat)
  | tagDigits (n : Nat)
  deriving DecidableEq

/-- The selectors of a presentation. -/
inductive Selector
  | wide
  | text
  | pictogram

/-- The selector that a character is, if it is one. -/
def Selector.ofChar? (c : Char) : Option Selector :=
  if c = '\uFE01' then some .wide
  else if c = '\uFE0E' then some .text
  else if c = '\uFE0F' then some .pictogram
  else none

/-- What stands after a character: what the text opens with and the selectors before that. -/
structure Ahead where
  opening : Opening
  wide : Bool
  text : Bool
  pictogram : Bool

namespace Ahead

/-- Nothing stands after that changes the width of a character. -/
def plain : Ahead := ⟨.plain, false, false, false⟩

/-- Whether what stands after opens with a part of a ligature. -/
def isLigature (a : Ahead) : Bool := a.opening matches .ligature _

/-- Whether what stands after opens with a joined pictogram. -/
def isJoined (a : Ahead) : Bool := a.opening matches .joined _

/-- A selector put before a text. It hides what the text opens with, but for the end of a ligature
and, if a pictogram is asked for, one that is joined. -/
def select (a : Ahead) : Selector → Ahead
  | .wide => { (if a.isLigature then a else plain) with wide := true }
  | .text => { (if a.isLigature then a else plain) with text := true }
  | .pictogram => { (if a.isLigature || a.isJoined then a else plain) with pictogram := true }

/-- What is left of a selector that asks for a pictogram where there is none. -/
def withoutPictogram (a : Ahead) : Ahead :=
  if !a.pictogram then a
  else if a.isLigature then { a with pictogram := false }
  else plain

/-- A text that opens with `c`, where nothing after `c` matters. -/
def ofChar (c : Char) : Ahead :=
  let opening :=
    match LigatureEnd.ofChar? c with
    | some e => .ligature e
    | none =>
      if c.toNat = 0x16D67 then .signE
      else if c.toNat = 0x16D68 then .signAi
      else if isTone c then .tone
      else if isFlagLetter c then .flagLetter
      else if isPictogram c then .pictogram
      else .plain
  { plain with opening }

end Ahead

/-- The columns that a character adds to a text that opens in the given way, and how the two open;
`none` if what follows makes no difference. -/
def Opening.precededBy? (o : Opening) (c : Char) : Option (Int × Opening) :=
  match o with
  | .ligature e =>
    (e.precededBy? c).map fun (columns, e) => (columns, e.elim .plain .ligature)
  | .tone =>
    if isTonable c then some (0, .pictogram)
    else if c = joiner then some (0, .joined false)
    else none
  | .flagLetter => if isFlagLetter c then some (1, .flagLetters) else none
  | .flagLetters =>
    if isFlagLetter c then some (1, .flagLetters)
    else if c = joiner then some (0, .joined false)
    else none
  | .pictogram => if c = joiner then some (0, .joined false) else none
  | .joined false =>
    if c = '\u20E3' then some (0, .joined true)
    else if isFlagLetter c then some (1, .joinedFlagLetter)
    else if isTone c then some (0, .tone)
    else if c.toNat = 0xE007F then some (0, .tagEnd)
    else if isPictogram c then some (0, .pictogram)
    else none
  | .joinedFlagLetter => if isFlagLetter c then some (-1, .joinedFlagLetters false) else none
  | .joinedFlagLetters odd =>
    if isFlagLetter c then some (if odd then -1 else 3, .joinedFlagLetters !odd)
    else if c = joiner then some (0, .joined false)
    else none
  | .tagEnd =>
    if isTagLetter c then some (0, .tagLetters 1)
    else if isTagDigit c then some (0, .tagDigits 1)
    else none
  | .tagLetters n =>
    if isTagLetter c && n < 6 then some (0, .tagLetters (n + 1))
    else if isTagDigit c && n < 5 then some (0, .tagDigits 1)
    else if c.toNat = 0x1F3F4 ∧ 3 ≤ n then some (0, .pictogram)
    else none
  | .tagDigits n =>
    if isTagDigit c && n < 3 then some (0, .tagDigits (n + 1))
    else if c.toNat = 0x1F3F4 ∧ n = 3 then some (0, .pictogram)
    else none
  | .signE =>
    if c.toNat = 0x16D63 ∨ c.toNat = 0x16D69 then some (0, .plain)
    else if c.toNat = 0x16D67 then some (0, .signAi)
    else if c.toNat = 0x16D68 then some (1, .signE)
    else none
  | .signAi => if c.toNat = 0x16D63 then some (0, .plain) else none
  | _ => none

/-- Whether `c` is a quotation mark that can be asked to be wide. -/
def isQuotationMark (c : Char) : Bool :=
  c == '\u2018' || c == '\u2019' || c == '\u201C' || c == '\u201D'

/-- A character that is no control or ASCII character before a text, where no pictogram is asked
for: the columns that it adds, and what then stands after the character before it. -/
def Ahead.precededBy (a : Ahead) (c : Char) : Int × Ahead :=
  if let some s := Selector.ofChar? c then (0, a.select s)
  else if a.text && isNarrowable c then (1, plain)
  else if !a.text && a.wide && isQuotationMark c then (2, plain)
  else
    let a := if a.text then { a with text := false } else { a with wide := false }
    let transparent :=
      match a.opening with
      | .ligature e => e.afterTransparent? c
      | _ => none
    match transparent with
    | some e => (0, { a with opening := .ligature e })
    | none =>
      match if a.wide then none else a.opening.precededBy? c with
      | some (columns, opening) => (columns, { plain with opening })
      | none => (charWidth c, ofChar c)

/-- The columns that a character adds to a text that stands after it, and what then stands after the
character before it. A carriage return before a line feed takes no column. -/
def Ahead.prepend (a : Ahead) (c : Char) : Int × Ahead :=
  if a.pictogram && isSelectable c then
    (if a.isJoined then 0 else 2, { plain with opening := .pictogram })
  else
    let a := a.withoutPictogram
    if 0xA0 < c.toNat then a.precededBy c
    else if c = '\n' then (1, { plain with opening := .lineFeed })
    else if c = '\r' ∧ a.opening = .lineFeed then (0, plain)
    else (1, plain)

/-- The columns of a text, and what stands after a character before it. -/
def measure (cs : List Char) : Int × Ahead :=
  cs.foldr (fun c m => let step := m.2.prepend c; (m.1 + step.1, step.2)) (0, .plain)

/-- The number of columns that characters take on a terminal. -/
def width (cs : List Char) : Nat := (measure cs).1.toNat

end ProvenTables.Text
