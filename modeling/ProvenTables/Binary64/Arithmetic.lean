import ProvenTables.Binary64.Basic

/-!
# Arithmetic on binary64 numbers

The correctly rounded operations of IEEE 754, and the sums and products of vectors built from them.
-/

namespace ProvenTables.Binary64

/-- The bits of a result; every NaN is the one quiet NaN. -/
def ofFloat (x : Float) : Binary64 := if x.isNaN then nan else ⟨x.toBits⟩

/-- The machine number with the same bits. -/
def toFloat (x : Binary64) : Float := Float.ofBits x.bits

/-- The rounded sum. -/
def add (x y : Binary64) : Binary64 := ofFloat (x.toFloat + y.toFloat)

/-- The rounded product. -/
def mul (x y : Binary64) : Binary64 := ofFloat (x.toFloat * y.toFloat)

/-- The rounded quotient. -/
def div (x y : Binary64) : Binary64 := ofFloat (x.toFloat / y.toFloat)

/-- The rounded square root. -/
def sqrt (x : Binary64) : Binary64 := ofFloat x.toFloat.sqrt

/-- The sum from left to right; the empty sum is `-0`, the neutral element of addition. -/
def sum (xs : List Binary64) : Binary64 := xs.foldl add (ofMagnitude true 0)

/-- The sum of the products of entries, added from the left. -/
def dot (xs ys : List Binary64) : Binary64 := sum (List.zipWith mul xs ys)

/-- The Euclidean length of a list of numbers. -/
def norm (xs : List Binary64) : Binary64 := sqrt (dot xs xs)

/-- The integer nearest to a finite number; halves go away from zero. -/
def round (x : Binary64) : Int :=
  let m := x.significand
  let n : Nat :=
    if 0 ≤ x.scale then m * 2 ^ x.scale.toNat
    else
      let d := 2 ^ (-x.scale).toNat
      (2 * m + d) / (2 * d)
  if x.isNegative then -(n : Int) else n

end ProvenTables.Binary64
