import ProvenTables.Membership.Witness

/-!
# Circuits and proofs

A circuit is one subtraction whose result must be zero. The proof of a circuit is a digest of its
bytes, which anyone can check.
-/

namespace ProvenTables.Membership

/-- One subtraction: its two sides and the output that their difference must have. -/
structure Circuit where
  lhs : Int
  rhs : Int
  output : Int
  deriving DecidableEq

/-- The proof of a circuit, which is a digest of it. -/
structure Proof where
  bytes : List UInt8
  deriving DecidableEq

namespace Proof

/-- The bytes of a proof in hexadecimal digits. -/
def hex (p : Proof) : String := Text.hex p.bytes

/-- The proof as a message shows it. -/
def render (p : Proof) : String := "ProofBytes(" ++ p.hex ++ ")"

end Proof

namespace Circuit

/-- The circuit of a witness. -/
def ofWitness (w : Witness) : Circuit := ⟨w.lhs, w.rhs, w.value⟩

/-- The difference of the two sides. -/
def value (c : Circuit) : Int := c.lhs - c.rhs

/-- Whether the output is that of the gate, and zero. -/
def isSatisfied (c : Circuit) : Bool := c.output == 0 && c.value == c.output

/-- An operand with its length in bytes before it. -/
def operandBytes (x : Int) : List UInt8 :=
  let bytes := Bytes.ofInt x
  Bytes.bigEndian 4 bytes.length ++ bytes

/-- The bytes of a circuit: a mark, the tag of the gate, the operands and the output. -/
def bytes (c : Circuit) : List UInt8 :=
  Digest.utf8 "ZKC1" ++ [1] ++ operandBytes c.lhs ++ operandBytes c.rhs ++ operandBytes c.output

/-- The bytes of a circuit in hexadecimal digits. -/
def hex (c : Circuit) : String := Text.hex c.bytes

/-- The bytes whose digest proves a circuit. -/
def transcript (c : Circuit) : List UInt8 := Digest.utf8 "zkdb-transcript-v1" ++ c.bytes

/-- A circuit is proved if it is satisfied, and otherwise its value is reported. -/
def prove (c : Circuit) : Except MembershipError Proof :=
  if c.isSatisfied then .ok ⟨Digest.sha256 c.transcript⟩ else .error (.unsatisfied c.value)

/-- A proof is accepted if its circuit is satisfied and has its digest. -/
def verify (c : Circuit) (p : Proof) : Bool :=
  c.isSatisfied && Digest.sha256 c.transcript == p.bytes

end Circuit

end ProvenTables.Membership
