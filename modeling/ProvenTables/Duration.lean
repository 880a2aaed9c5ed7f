/-!
# Durations

Spans of time as seconds, of 64 bits, and a number of nanoseconds that is less than a second. A multiple
whose seconds do not fit is none.
-/

namespace ProvenTables

/-- A length of time in seconds and less than a second of nanoseconds. -/
structure Duration where
  seconds : UInt64
  nanos : UInt32
  nanos_lt : nanos.toNat < 10 ^ 9

namespace Duration

/-- The whole length in nanoseconds. -/
def toNanos (d : Duration) : Nat := d.seconds.toNat * 10 ^ 9 + d.nanos.toNat

/-- The duration is shorter: its seconds decide first. -/
def isLess (d e : Duration) : Bool :=
  d.seconds < e.seconds || (d.seconds == e.seconds && d.nanos < e.nanos)

/-- The shorter duration. -/
def shorter (d e : Duration) : Duration := if e.isLess d then e else d

/-- The product of two numbers of 64 bits, if it has 64 bits. -/
def product? (a b : UInt64) : Option UInt64 :=
  if a.toNat * b.toNat < 2 ^ 64 then some (a * b) else none

/-- The sum of two numbers of 64 bits, if it has 64 bits. -/
def sum? (a b : UInt64) : Option UInt64 :=
  if a.toNat + b.toNat < 2 ^ 64 then some (a + b) else none

/-- The nanoseconds beside whole seconds. -/
theorem toNat_beside (n : UInt64) : (n % 1000000000).toUInt32.toNat = n.toNat % 10 ^ 9 := by
  have hlt : n.toNat % 10 ^ 9 < 10 ^ 9 := Nat.mod_lt _ (by decide)
  rw [UInt64.toNat_toUInt32, UInt64.toNat_mod]
  exact Nat.mod_eq_of_lt (Nat.lt_trans hlt (by decide))

/-- The multiple of a duration, if its seconds fit. The nanoseconds alone make less than `2 ^ 64`. -/
def times? (d : Duration) (n : UInt32) : Option Duration := do
  let nanos := d.nanos.toUInt64 * n.toUInt64
  let seconds ← product? d.seconds n.toUInt64
  let seconds ← sum? seconds (nanos / 1000000000)
  return ⟨seconds, (nanos % 1000000000).toUInt32,
    toNat_beside nanos ▸ Nat.mod_lt _ (by decide)⟩

end Duration

end ProvenTables
