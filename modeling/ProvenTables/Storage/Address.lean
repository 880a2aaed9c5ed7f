import ProvenTables.Digest
import ProvenTables.Json.Printer

/-!
# Content addresses

An object is stored under the digest of its canonical text. Main statement: such an address is
always one that a store accepts.
-/

namespace ProvenTables

/-- The address of an object in the store. -/
structure Address where
  text : String
  deriving DecidableEq

namespace Address

/-- The address that stands for a history without entries. -/
def sentinel : Address := ⟨"0x0"⟩

/-- Whether an address is the one of a history without entries. -/
def isSentinel (a : Address) : Bool := a == sentinel

/-- Whether the text is a digest: 64 digits of lower-case hexadecimal text. -/
def isDigest (a : Address) : Bool :=
  a.text.toList.length == 64 && a.text.toList.all Text.isHexDigit

/-- The address of a content, which is its digest. -/
def ofText (content : String) : Address := ⟨Digest.ofText content⟩

/-- The address of a document, which is the one of its canonical text. -/
def ofJson (v : Json) : Address := ofText v.canonical

/-- The address of a content has the form of a digest. -/
theorem isDigest_ofText (content : String) : (ofText content).isDigest = true := by
  simp only [isDigest, ofText, Digest.ofText, Text.hex, String.toList_ofList,
    Text.length_hexChars, Digest.length_sha256, Bool.and_eq_true, beq_iff_eq, List.all_eq_true]
  exact ⟨trivial, fun _ => Text.isHexDigit_of_mem_hexChars⟩

end Address

end ProvenTables
