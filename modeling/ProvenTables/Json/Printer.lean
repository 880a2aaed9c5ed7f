import ProvenTables.Json.Basic
import ProvenTables.Binary64.Notation
import ProvenTables.Text.Hex

/-!
# JSON as text

Compact text without any white space, and indented text with two spaces a level. The canonical text
of a value is the compact text of its normal form, so it depends on the bindings of objects alone.
-/

namespace ProvenTables

/-- The text of a number. -/
def JsonNumber.render : JsonNumber → String
  | .int n => toString n
  | .float x => x.render .json

namespace Json

/-- A character inside a string literal: quote, backslash and controls are escaped. -/
def escapeChar (c : Char) : List Char :=
  if c = '"' then ['\\', '"']
  else if c = '\\' then ['\\', '\\']
  else if c = '\x08' then ['\\', 'b']
  else if c = '\x0c' then ['\\', 'f']
  else if c = '\n' then ['\\', 'n']
  else if c = '\r' then ['\\', 'r']
  else if c = '\t' then ['\\', 't']
  else if c.toNat < 32 then '\\' :: 'u' :: '0' :: '0' :: Text.hexByte (UInt8.ofNat c.toNat)
  else [c]

/-- The characters of a text in quotes. -/
def quote (s : String) : List Char := '"' :: (s.toList.flatMap escapeChar ++ ['"'])

mutual

/-- The characters of a document without blanks. -/
def chars : Json → List Char
  | null => ['n', 'u', 'l', 'l']
  | bool true => ['t', 'r', 'u', 'e']
  | bool false => ['f', 'a', 'l', 's', 'e']
  | num n => n.render.toList
  | str s => quote s
  | arr [] => ['[', ']']
  | arr (v :: vs) => '[' :: (chars v ++ charsOfItems vs)
  | obj [] => ['{', '}']
  | obj ((k, v) :: fs) => '{' :: (quote k ++ ':' :: (chars v ++ charsOfFields fs))

/-- The items of an array after the first, and its end. -/
def charsOfItems : List Json → List Char
  | [] => [']']
  | v :: vs => ',' :: (chars v ++ charsOfItems vs)

/-- The fields of an object after the first, and its end. -/
def charsOfFields : List (String × Json) → List Char
  | [] => ['}']
  | (k, v) :: fs => ',' :: (quote k ++ ':' :: (chars v ++ charsOfFields fs))

end

/-- The compact text of a value. -/
def compact (v : Json) : String := String.ofList v.chars

/-- The compact text of the normal form of a value. -/
def canonical (v : Json) : String := v.normalize.compact

/-- A line break and the indentation of a level. -/
def newline (level : Nat) : List Char := '\n' :: List.replicate (2 * level) ' '

mutual

/-- The indented text of a value whose first line is already indented by `level`. -/
def indented (level : Nat) : Json → List Char
  | arr (v :: vs) =>
    '[' :: (newline (level + 1) ++ indented (level + 1) v ++ indentedItems level vs)
  | obj ((k, v) :: fs) =>
    '{' :: (newline (level + 1) ++ quote k ++ ':' :: ' ' :: indented (level + 1) v ++
      indentedFields level fs)
  | v => chars v

/-- The rest of a list, with an item on each line. -/
def indentedItems (level : Nat) : List Json → List Char
  | [] => newline level ++ [']']
  | v :: vs => ',' :: (newline (level + 1) ++ indented (level + 1) v ++ indentedItems level vs)

/-- The rest of an object, with a field on each line. -/
def indentedFields (level : Nat) : List (String × Json) → List Char
  | [] => newline level ++ ['}']
  | (k, v) :: fs =>
    ',' :: (newline (level + 1) ++ quote k ++ ':' :: ' ' :: indented (level + 1) v ++
      indentedFields level fs)

end

/-- The text of a document on several lines. -/
def pretty (v : Json) : String := String.ofList (v.indented 0)

end Json

end ProvenTables
