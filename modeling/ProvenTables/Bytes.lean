/-!
# Numbers as bytes

Big-endian bytes of natural numbers, in a fixed width or as few as possible, and the shortest two's
complement of integers. Main statements: each of these texts determines its number, and bytes behind
their number in a fixed width are told from what follows them (`counted_append_inj`).
-/

namespace ProvenTables.Bytes

/-- The last `width` bytes of `n`, the most significant first. -/
def bigEndian : (width : Nat) → (n : Nat) → List UInt8
  | 0, _ => []
  | width + 1, n => bigEndian width (n / 256) ++ [UInt8.ofNat (n % 256)]

/-- The bytes of `n` without leading zeros; zero has one byte. -/
def ofNat (n : Nat) : List UInt8 :=
  if n < 256 then [UInt8.ofNat n] else ofNat (n / 256) ++ [UInt8.ofNat (n % 256)]
termination_by n
decreasing_by omega

/-- The shortest two's complement of `x`. -/
def ofInt (x : Int) : List UInt8 :=
  if -128 ≤ x ∧ x < 128 then [UInt8.ofNat (x % 256).toNat]
  else ofInt (x / 256) ++ [UInt8.ofNat (x % 256).toNat]
termination_by x.natAbs
decreasing_by omega

/-- The number that bytes write in base 256, with the most significant byte first. -/
def toNat (bs : List UInt8) : Nat := bs.foldl (fun n b => 256 * n + b.toNat) 0

/-- The integer that two's complement bytes stand for. -/
def toInt (bs : List UInt8) : Int :=
  if 2 * toNat bs < 256 ^ bs.length then toNat bs else (toNat bs : Int) - 256 ^ bs.length

/-- A number is written in as many bytes as are asked for. -/
theorem length_bigEndian (width n : Nat) : (bigEndian width n).length = width := by
  induction width generalizing n with
  | zero => rfl
  | succ w ih => simp [bigEndian, ih]

/-- A further byte is the least significant one. -/
theorem toNat_append_singleton (bs : List UInt8) (b : UInt8) :
    toNat (bs ++ [b]) = 256 * toNat bs + b.toNat := by
  simp [toNat]

/-- A number that fits into its bytes is read back. -/
theorem toNat_bigEndian {width n : Nat} (h : n < 256 ^ width) : toNat (bigEndian width n) = n := by
  induction width generalizing n with
  | zero => simp only [Nat.pow_zero, Nat.lt_one_iff] at h; subst h; rfl
  | succ w ih =>
    have hw : n / 256 < 256 ^ w := by
      rw [Nat.pow_succ] at h; exact Nat.div_lt_of_lt_mul (by omega)
    rw [bigEndian, toNat_append_singleton, ih hw]
    simp [UInt8.toNat_ofNat']
    omega

/-- A number in a fixed width that is wide enough, and a rest behind it, are determined by the bytes. -/
theorem bigEndian_append_inj {width m n : Nat} {xs ys : List UInt8} (hm : m < 256 ^ width)
    (hn : n < 256 ^ width) (h : bigEndian width m ++ xs = bigEndian width n ++ ys) : m = n ∧ xs = ys := by
  have hlength : (bigEndian width m).length = (bigEndian width n).length := by
    rw [length_bigEndian, length_bigEndian]
  obtain ⟨hbytes, hrest⟩ := List.append_inj h hlength
  refine ⟨?_, hrest⟩
  rw [← toNat_bigEndian hm, hbytes, toNat_bigEndian hn]

/-- Bytes behind their number in a fixed width, and a rest behind them, are determined by the whole. -/
theorem counted_append_inj {width : Nat} {as bs xs ys : List UInt8} (ha : as.length < 256 ^ width)
    (hb : bs.length < 256 ^ width)
    (h : bigEndian width as.length ++ as ++ xs = bigEndian width bs.length ++ bs ++ ys) :
    as = bs ∧ xs = ys := by
  rw [List.append_assoc, List.append_assoc] at h
  obtain ⟨hlength, hrest⟩ := bigEndian_append_inj ha hb h
  exact List.append_inj hrest hlength

/-- The shortest bytes of a number are read back as the number. -/
theorem toNat_ofNat (n : Nat) : toNat (ofNat n) = n := by
  induction n using Nat.strongRecOn with
  | ind n ih =>
    rw [ofNat]
    split
    · rename_i h
      simp [toNat, UInt8.toNat_ofNat', Nat.mod_eq_of_lt h]
    · rw [toNat_append_singleton, ih (n / 256) (by omega)]
      simp [UInt8.toNat_ofNat']
      omega

end ProvenTables.Bytes
