import ProvenTables.Binary64.Basic

/-!
# Decimal numbers and binary64

Reading rounds a decimal number to the nearest binary64 number. The shortest decimal of a number is
the one of fewest digits that reads back, and of those the nearest.
-/

namespace ProvenTables

/-- The decimal number `coefficient · 10 ^ exponent`. -/
structure Decimal where
  coefficient : Nat
  exponent : Int
  deriving DecidableEq

/-- Which of two neighbours an exact half goes to. -/
inductive Tie where
  | toEven
  | up
  deriving DecidableEq

namespace Tie

/-- Whether `num / den` goes to the neighbour above its floor. -/
def roundsUp (tie : Tie) (num den : Nat) : Bool :=
  let rest := num % den
  den < 2 * rest || den == 2 * rest &&
    match tie with
    | toEven => num / den % 2 == 1
    | up => true

/-- The integer nearest to `num / den`. -/
def roundDiv (tie : Tie) (num den : Nat) : Nat :=
  num / den + if tie.roundsUp num den then 1 else 0

end Tie

namespace Binary64

/-- The number nearest to `num / den`; halves go to the even significand, and what lies half a unit
beyond the largest finite number is infinite. -/
def ofRatio (negative : Bool) (num den : Nat) : Binary64 :=
  if num = 0 then ofMagnitude negative 0
  else
    let s : Int := max ((num.log2 : Int) - den.log2 - 53) (-1074)
    let n := num * 2 ^ (-s).toNat
    let d := den * 2 ^ s.toNat
    let wide := decide (d * 2 ^ 53 ≤ n)
    let m := Tie.toEven.roundDiv n (if wide then 2 * d else d)
    let e := (s + 1074).toNat + if wide then 1 else 0
    ofMagnitude negative (min (e * 2 ^ 52 + m) infinityMagnitude)

/-- The number nearest to a decimal. The bounds on the exponent only spare large powers: past them
the result is infinite or zero anyway. -/
def ofDecimal (negative : Bool) (d : Decimal) : Binary64 :=
  if d.coefficient = 0 then ofMagnitude negative 0
  else if 400 < d.exponent then infinity negative
  else if d.exponent < -(400 + (d.coefficient.log2 : Int)) then ofMagnitude negative 0
  else ofRatio negative (d.coefficient * 10 ^ d.exponent.toNat) (10 ^ (-d.exponent).toNat)

/-- The number nearest to an integer. -/
def ofInt (n : Int) : Binary64 := ofRatio (decide (n < 0)) n.natAbs 1

/-- The absolute value of a finite number as a fraction. -/
def ratio (x : Binary64) : Nat × Nat :=
  (x.significand * 2 ^ x.scale.toNat, 2 ^ (-x.scale).toNat)

/-- The absolute value of a finite number as a decimal, in full. -/
def exactDecimal (x : Binary64) : Decimal :=
  ⟨x.significand * 2 ^ x.scale.toNat * 5 ^ (-x.scale).toNat, min x.scale 0⟩

/-- The greatest `p` with `10 ^ p ≤ |x|`, for a finite number other than zero. -/
def decimalMagnitude (x : Binary64) : Int :=
  let p := ((x.significand.log2 : Int) + x.scale) * 30103 / 100000
  let q := p + 1
  if x.ratio.2 * 10 ^ q.toNat ≤ x.ratio.1 * 10 ^ (-q).toNat then q else p

/-- The multiple of `10 ^ grid` that reads back as `|x|`, among the two neighbours of `|x|`: the
nearer one if both do. -/
def onGrid? (tie : Tie) (x : Binary64) (grid : Int) : Option Decimal :=
  let n := x.ratio.1 * 10 ^ (-grid).toNat
  let d := x.ratio.2 * 10 ^ grid.toNat
  let below : Decimal := ⟨n / d, grid⟩
  let above : Decimal := ⟨n / d + 1, grid⟩
  let (near, far) := if tie.roundsUp n d then (above, below) else (below, above)
  if ofDecimal false near = x.abs then some near
  else if ofDecimal false far = x.abs then some far
  else none

/-- The decimal of fewest digits that reads back as `|x|`, and of those the nearest; `tie` decides
between two that are equally near. -/
def shortestDecimal (tie : Tie) (x : Binary64) : Decimal :=
  if x.isZero then ⟨0, 0⟩
  else
    let p := x.decimalMagnitude
    ((List.range 17).findSome? fun (n : Nat) => x.onGrid? tie (p - n)).getD x.exactDecimal

end Binary64

end ProvenTables
