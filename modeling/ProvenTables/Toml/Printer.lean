import ProvenTables.Text.Hex
import ProvenTables.Toml.Basic

/-!
# Writing TOML

Lines of settings. A string is written in the first form that holds it without an escape: between
double quotes, between single quotes, or over several lines; if there is none, with escapes.
-/

namespace ProvenTables.Toml

/-- The length of the longest run of a character. -/
def longestRun (c : Char) (cs : List Char) : Nat :=
  (cs.foldl (fun (run, best) d =>
    if d = c then (run + 1, max best (run + 1)) else (0, best)) (0, 0)).2

/-- Whether a character can only be written as an escape. -/
def needsEscape (c : Char) : Bool :=
  (c.toNat < 32 && c != '\t' && c != '\n') || c.toNat == 127

/-- The escape of a character that stands for it in every form with escapes. -/
def escapeOf (c : Char) : List Char :=
  if c = '\x08' then ['\\', 'b']
  else if c = '\t' then ['\\', 't']
  else if c = '\x0c' then ['\\', 'f']
  else if c = '\r' then ['\\', 'r']
  else if c = '\\' then ['\\', '\\']
  else if needsEscape c then '\\' :: 'u' :: '0' :: '0' :: (Text.hexByte (UInt8.ofNat c.toNat)).map
    Char.toUpper
  else [c]

/-- The content of a string with escapes. At most `allowed` double quotes stand together, given the
number of those just before; line breaks stay as they are in the form over several lines. -/
def escaped (lines : Bool) (allowed : Nat) : (quotes : Nat) → List Char → List Char
  | _, [] => []
  | quotes, c :: cs =>
    if c = '"' then
      if quotes < allowed then '"' :: escaped lines allowed (quotes + 1) cs
      else '\\' :: '"' :: escaped lines allowed 0 cs
    else if c = '\n' ∧ !lines then '\\' :: 'n' :: escaped lines allowed 0 cs
    else escapeOf c ++ escaped lines allowed 0 cs

/-- A string of several lines between quotes; a line break is put before it if it has one itself. -/
def overLines (quote : Char) (plain content : List Char) : List Char :=
  let quotes := [quote, quote, quote]
  quotes ++ (if '\n' ∈ plain then ['\n'] else []) ++ content ++ quotes

/-- A text in the quotes that suit what is in it. -/
def quoted (s : String) : String :=
  let cs := s.toList
  let lines := '\n' ∈ cs
  let controls := cs.any needsEscape
  let backslashes := '\\' ∈ cs
  let double := longestRun '"' cs
  let single := longestRun '\'' cs
  String.ofList <|
    if !controls ∧ !backslashes ∧ double = 0 ∧ !lines then '"' :: (escaped false 0 0 cs ++ ['"'])
    else if !controls ∧ single = 0 ∧ !lines then '\'' :: (cs ++ ['\''])
    else if !controls ∧ !backslashes ∧ double ≤ 2 then overLines '"' cs (escaped true 2 0 cs)
    else if !controls ∧ single ≤ 2 then overLines '\'' cs cs
    else if lines then overLines '"' cs (escaped true 2 0 cs)
    else '"' :: (escaped false 0 0 cs ++ ['"'])

/-- A line that gives a key its value. -/
def setting (key value : String) : String := key ++ " = " ++ value ++ "\n"

/-- The line of a setting with a natural number, if the number is an integer of 64 bits. -/
def natSetting? (key : String) (n : Nat) : Option String :=
  if n < 2 ^ 63 then some (setting key (toString n)) else none

/-- A line that gives a key a truth value. -/
def boolSetting (key : String) (b : Bool) : String := setting key (if b then "true" else "false")

/-- The lines that open a table after other lines. -/
def header (name : String) : String := "\n[" ++ name ++ "]\n"

end ProvenTables.Toml
