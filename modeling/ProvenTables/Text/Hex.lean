/-!
# Hexadecimal text

Two lower-case digits for each byte.
-/

namespace ProvenTables.Text

/-- A hexadecimal digit with a small letter. -/
def isHexDigit (c : Char) : Bool := c.isDigit || ('a' ≤ c && c ≤ 'f')

/-- The two digits of a byte. -/
def hexByte (b : UInt8) : List Char := [Nat.digitChar (b.toNat / 16), Nat.digitChar (b.toNat % 16)]

/-- Two digits for each byte. -/
def hexChars (bs : List UInt8) : List Char := bs.flatMap hexByte

/-- The hexadecimal text of bytes. -/
def hex (bs : List UInt8) : String := String.ofList (hexChars bs)

/-- The value of a hexadecimal digit of either case. -/
def hexValue? (c : Char) : Option Nat :=
  if c.isDigit then some (c.toNat - 48)
  else if 'a' ≤ c ∧ c ≤ 'f' then some (c.toNat - 87)
  else if 'A' ≤ c ∧ c ≤ 'F' then some (c.toNat - 55)
  else none

/-- The digit of a number below sixteen is a hexadecimal digit. -/
theorem isHexDigit_digitChar : ∀ n < 16, isHexDigit (Nat.digitChar n) = true := by decide

/-- The digit of a number below sixteen is read back as the number. -/
theorem hexValue?_digitChar : ∀ n < 16, hexValue? (Nat.digitChar n) = some n := by decide

/-- The digits are twice as many as the bytes. -/
theorem length_hexChars (bs : List UInt8) : (hexChars bs).length = 2 * bs.length := by
  induction bs with
  | nil => rfl
  | cons b bs ih => simp only [hexChars, List.flatMap_cons, List.length_append, hexByte] at *
                    simp only [ih, List.length_cons, List.length_nil]
                    omega

/-- Every character of a hexadecimal text is a hexadecimal digit. -/
theorem isHexDigit_of_mem_hexChars {bs : List UInt8} {c : Char} (h : c ∈ hexChars bs) :
    isHexDigit c = true := by
  obtain ⟨b, -, hc⟩ := List.mem_flatMap.1 h
  have hb : b.toNat < 256 := b.toNat_lt
  simp only [hexByte, List.mem_cons, List.not_mem_nil, or_false] at hc
  rcases hc with rfl | rfl
  · exact isHexDigit_digitChar _ (by omega)
  · exact isHexDigit_digitChar _ (by omega)

end ProvenTables.Text
