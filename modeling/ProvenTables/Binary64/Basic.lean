/-!
# Binary64 numbers

IEEE 754 double precision numbers as bit patterns. Equality is equality of bits; `equals` is the
numeric comparison, in which a NaN differs from itself and both zeros are the same.
-/

/- Powers of numbers are those of the core library, also where other powers are known. -/
attribute [instance (20000)] instPowNat
attribute [default_instance 20000] instPowNat

namespace ProvenTables

/-- A double precision number, given by its bits. -/
structure Binary64 where
  bits : UInt64
  deriving DecidableEq, Inhabited

namespace Binary64

/-- Whether the sign bit is set, which it is for a negative zero too. -/
def isNegative (x : Binary64) : Bool := x.bits.toNat ≥ 2 ^ 63

/-- The bits below the sign. -/
def magnitude (x : Binary64) : Nat := x.bits.toNat % 2 ^ 63

/-- The magnitude of the infinities; larger ones are NaN. -/
def infinityMagnitude : Nat := 2047 * 2 ^ 52

/-- The number with a sign and the bits below it. -/
def ofMagnitude (negative : Bool) (m : Nat) : Binary64 :=
  ⟨UInt64.ofNat (m + if negative then 2 ^ 63 else 0)⟩

/-- The positive zero. -/
def zero : Binary64 := ⟨0⟩

/-- The number one. -/
def one : Binary64 := ⟨0x3FF0000000000000⟩

/-- The number that stands for an undefined result. -/
def nan : Binary64 := ⟨0x7FF8000000000000⟩

/-- The infinity of a sign. -/
def infinity (negative : Bool) : Binary64 := ofMagnitude negative infinityMagnitude

/-- Whether a number is neither infinite nor undefined. -/
def isFinite (x : Binary64) : Bool := x.magnitude < infinityMagnitude

/-- Whether the bits stand for no number. -/
def isNaN (x : Binary64) : Bool := infinityMagnitude < x.magnitude

/-- Whether a number is one of the two zeros. -/
def isZero (x : Binary64) : Bool := x.magnitude == 0

/-- The number with its sign bit cleared. -/
def abs (x : Binary64) : Binary64 := ofMagnitude false x.magnitude

/-- The number with its sign bit turned over. -/
def negate (x : Binary64) : Binary64 := ofMagnitude (!x.isNegative) x.magnitude

/-- The integer `m` in the absolute value `m · 2 ^ scale` of a finite number. -/
def significand (x : Binary64) : Nat :=
  if x.magnitude / 2 ^ 52 = 0 then x.magnitude else x.magnitude % 2 ^ 52 + 2 ^ 52

/-- The power of two in the absolute value `significand · 2 ^ scale` of a finite number. -/
def scale (x : Binary64) : Int := (Nat.max (x.magnitude / 2 ^ 52) 1 : Int) - 1075

/-- The place of `x` in the total order of bit patterns: negative NaN, negative numbers, `-0`, `0`,
positive numbers, NaN. -/
def rank (x : Binary64) : Int :=
  if x.isNegative then -(x.magnitude : Int) - 1 else x.magnitude

/-- The total order of IEEE 754, which compares the ranks of the bits. -/
def totalCompare (x y : Binary64) : Ordering := compare x.rank y.rank

/-- Whether two numbers are equal as numbers; the zeros are, and nothing is equal to an undefined one. -/
def equals (x y : Binary64) : Bool :=
  !x.isNaN && !y.isNaN && (x == y || x.isZero && y.isZero)

end Binary64

end ProvenTables
