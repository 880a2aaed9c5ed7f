/-!
# White space

The characters with the Unicode property `White_Space`, and trimming by them.
-/

namespace ProvenTables.Text

/-- Whether `c` has the Unicode property `White_Space`. -/
def isBlank (c : Char) : Bool :=
  let n := c.toNat
  (9 ≤ n && n ≤ 13) || n == 0x20 || n == 0x85 || n == 0xA0 || n == 0x1680 ||
    (0x2000 ≤ n && n ≤ 0x200A) || n == 0x2028 || n == 0x2029 || n == 0x202F || n == 0x205F ||
    n == 0x3000

/-- The characters without the blanks at the front. -/
def trimLeft (cs : List Char) : List Char := cs.dropWhile isBlank

/-- Drops the characters at the end that satisfy `p`. -/
def dropEndWhile (p : Char → Bool) (cs : List Char) : List Char :=
  (cs.reverse.dropWhile p).reverse

/-- The characters without the blanks at the end. -/
def trimRight (cs : List Char) : List Char := dropEndWhile isBlank cs

/-- The characters without the blanks at both ends. -/
def trim (cs : List Char) : List Char := trimRight (trimLeft cs)

/-- The text without the blanks at both ends. -/
def trimmed (s : String) : String := String.ofList (trim s.toList)

/-- The parts of `cs` between the characters that satisfy `p`; there is always one part. -/
def splitBy (p : Char → Bool) : List Char → List (List Char)
  | [] => [[]]
  | c :: cs =>
    if p c then [] :: splitBy p cs
    else match splitBy p cs with
      | [] => [[c]]
      | part :: parts => (c :: part) :: parts

/-- The rest of `cs` after the given opening text. -/
def after? : List Char → List Char → Option (List Char)
  | [], cs => some cs
  | _ :: _, [] => none
  | p :: ps, c :: cs => if p = c then after? ps cs else none

/-- Whether two texts agree when the case of ASCII letters is ignored. -/
def eqIgnoringAsciiCase (cs ds : List Char) : Bool := cs.map Char.toLower == ds.map Char.toLower

/-- The text with its ASCII letters made small. -/
def asciiLower (s : String) : String := String.ofList (s.toList.map Char.toLower)

/-- After a prefix comes the rest. -/
theorem after?_append (p cs : List Char) : after? p (p ++ cs) = some cs := by
  induction p with
  | nil => rfl
  | cons c p ih => simp [after?, ih]

/-- Splitting gives at least one part. -/
theorem splitBy_ne_nil (p : Char → Bool) (cs : List Char) : splitBy p cs ≠ [] := by
  induction cs with
  | nil => simp [splitBy]
  | cons c cs ih =>
    simp only [splitBy]
    split
    · simp
    · split <;> simp

end ProvenTables.Text
