import ProvenTables.Sql.ParseError
import ProvenTables.Text.Blank

/-!
# Nesting

A text is cut only where it is at the top level: outside quoted literals and outside brackets of
either kind. `Nesting` is what has to be known of the text so far.
-/

namespace ProvenTables.Sql

open Text

/-- Whether a place in a text lies inside quotes, and inside how many brackets. -/
structure Nesting where
  quoted : Bool
  depth : Nat
  deriving DecidableEq

namespace Nesting

/-- Outside of quotes and brackets. -/
def top : Nesting := ⟨false, 0⟩

/-- A character that opens a bracket of either kind. -/
def isOpening (c : Char) : Bool := c == '(' || c == '['

/-- A character that closes a bracket of either kind. -/
def isClosing (c : Char) : Bool := c == ')' || c == ']'

/-- The nesting after one more character. -/
def next (s : Nesting) (c : Char) : Nesting :=
  if c = quoteMark then { s with quoted := !s.quoted }
  else if s.quoted then s
  else if isOpening c then { s with depth := s.depth + 1 }
  else if isClosing c then { s with depth := s.depth - 1 }
  else s

/-- Whether a character met in this nesting stands at the top level. Quotes and closing brackets
never do; an opening bracket does if it opens the outermost level. -/
def isTop (s : Nesting) (c : Char) : Bool :=
  c != quoteMark && !s.quoted && !isClosing c && s.depth == 0

end Nesting

/-- The parts of a text between the top-level occurrences of `sep`. -/
def cutAt (sep : Char) : Nesting → List Char → List (List Char)
  | _, [] => [[]]
  | s, c :: cs =>
    if s.isTop c && c == sep then [] :: cutAt sep (s.next c) cs
    else match cutAt sep (s.next c) cs with
      | [] => [[c]]
      | part :: parts => (c :: part) :: parts

/-- The trimmed parts of a text between the top-level occurrences of `sep`. -/
def splitTop (sep : Char) (cs : List Char) : List (List Char) :=
  (cutAt sep .top cs).map trim

/-- Whether what follows a keyword ends it: the end of the text, a blank or an opening bracket. -/
def endsWord : List Char → Bool
  | [] => true
  | c :: _ => isBlank c || Nesting.isOpening c

/-- Whether a text begins with a keyword as a whole word. -/
def beginsWith (word cs : List Char) : Bool :=
  match after? word cs with
  | some rest => endsWord rest
  | none => false

/-- The text before and after the first top-level standing of a keyword as a whole word; `fresh`
says whether the text begins after a blank or at the start of the whole. -/
def splitAtWordFrom? (word : List Char) :
    Nesting → (fresh : Bool) → List Char → Option (List Char × List Char)
  | _, _, [] => none
  | s, fresh, c :: cs =>
    if fresh && s.isTop c && beginsWith word (c :: cs) then some ([], (c :: cs).drop word.length)
    else (splitAtWordFrom? word (s.next c) (isBlank c) cs).map fun p => (c :: p.1, p.2)

/-- The text before and after the first top-level standing of a keyword as a whole word. -/
def splitAtWord? (word : String) (cs : List Char) : Option (List Char × List Char) :=
  splitAtWordFrom? word.toList .top true cs

/-- The number of top-level standings of a keyword as a whole word. -/
def countWordFrom (word : List Char) : Nesting → (fresh : Bool) → List Char → Nat
  | _, _, [] => 0
  | s, fresh, c :: cs =>
    countWordFrom word (s.next c) (isBlank c) cs +
      if fresh && s.isTop c && beginsWith word (c :: cs) then 1 else 0

/-- How often a word stands outside of quotes and brackets. -/
def countWord (word : String) (cs : List Char) : Nat := countWordFrom word.toList .top true cs

/-- What has been read of a list of groups. -/
inductive GroupState where
  /-- Between groups; `done` says whether a group has just ended. -/
  | between (done : Bool)
  /-- In a group, inside `depth + 1` brackets; `text` is its text so far, backwards. -/
  | inside (quoted : Bool) (depth : Nat) (text : List Char)

/-- The trimmed contents of the groups in parentheses that make up a text, with commas and blanks
between them. -/
def groupsFrom : GroupState → List Char → Except ParseError (List (List Char))
  | .between done, [] => if done then .ok [] else .error .noGroup
  | .inside _ _ _, [] => .error .openGroup
  | .between done, c :: cs =>
    if Nesting.isOpening c then
      if c = '(' ∧ !done then groupsFrom (.inside false 0 []) cs else .error (.strayCharacter c)
    else if Nesting.isClosing c then .error (.unopened c)
    else if c = ',' then if done then groupsFrom (.between false) cs else .error .emptyGroup
    else if isBlank c then groupsFrom (.between done) cs
    else .error (.strayCharacter c)
  | .inside quoted depth text, c :: cs =>
    if quoted then groupsFrom (.inside (c != quoteMark) depth (c :: text)) cs
    else if c = quoteMark then groupsFrom (.inside true depth (c :: text)) cs
    else if Nesting.isOpening c then groupsFrom (.inside false (depth + 1) (c :: text)) cs
    else if Nesting.isClosing c then
      match depth with
      | 0 => do
        let rest ← groupsFrom (.between true) cs
        return trim text.reverse :: rest
      | depth + 1 => groupsFrom (.inside false depth (c :: text)) cs
    else groupsFrom (.inside false depth (c :: text)) cs

/-- The contents of the groups in parentheses, with a comma between two of them. -/
def groups (cs : List Char) : Except ParseError (List (List Char)) :=
  groupsFrom (.between false) cs

/-- The content of the one group in parentheses that a text consists of. -/
def soleGroup (cs : List Char) : Except ParseError (List Char) := do
  let text := trim cs
  match ← groups text with
  | [inner] =>
    if text.head? = some '(' ∧ text.getLast? = some ')' then return inner
    else .error (.notOneList (String.ofList text))
  | _ => .error (.notOneList (String.ofList text))

end ProvenTables.Sql
