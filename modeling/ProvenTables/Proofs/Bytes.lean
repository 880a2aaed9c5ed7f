import Mathlib
import ProvenTables.Bytes

/-!
# Bytes as numerals

Bytes are the digits of their number to the base 256: bytes of one number differ in leading zeros only
(`toNat_eq_iff`). The shortest two's complement determines its integer (`toInt_ofInt`).
-/

namespace ProvenTables.Bytes

/-- The number that bytes write is the one of their values as digits in base 256. -/
lemma toNat_eq_ofDigits (bs : List UInt8) :
    toNat bs = Nat.ofDigits 256 (bs.reverse.map UInt8.toNat) := by
  induction bs using List.reverseRecOn with
  | nil => rfl
  | append_singleton bs b ih =>
    rw [toNat_append_singleton, List.reverse_concat, List.map_cons, Nat.ofDigits_cons, ← ih, add_comm]

/-- The digits of a number are its bytes from the last, if the first is no zero. -/
lemma digits_toNat {bs : List UInt8} (h : bs.head? ≠ some 0) :
    Nat.digits 256 (toNat bs) = bs.reverse.map UInt8.toNat := by
  rw [toNat_eq_ofDigits]
  refine Nat.digits_ofDigits 256 (by decide) _ ?_ ?_
  · intro d hd
    obtain ⟨b, -, rfl⟩ := List.mem_map.1 hd
    exact b.toNat_lt
  · intro hne hlast
    rw [List.getLast_map, List.getLast_reverse, ← UInt8.toNat_zero, UInt8.toNat_inj] at hlast
    exact h (by rw [← hlast, List.head?_eq_some_head])

/-- Leading zeros do not count. -/
lemma toNat_dropWhile (bs : List UInt8) : toNat (bs.dropWhile (· == 0)) = toNat bs := by
  induction bs with
  | nil => rfl
  | cons b bs ih =>
    rw [List.dropWhile_cons]
    split
    · rename_i hb
      rw [ih, eq_of_beq hb]
      rfl
    · rfl

/-- Bytes have one number exactly if they are the same without leading zeros. -/
theorem toNat_eq_iff {as bs : List UInt8} :
    toNat as = toNat bs ↔ as.dropWhile (· == 0) = bs.dropWhile (· == 0) := by
  have hhead : ∀ cs : List UInt8, (cs.dropWhile (· == 0)).head? ≠ some 0 := fun cs h => by
    have hzero := List.head?_dropWhile_not (· == (0 : UInt8)) cs
    rw [h] at hzero
    exact absurd hzero (by decide)
  constructor
  · intro h
    rw [← toNat_dropWhile as, ← toNat_dropWhile bs] at h
    have hdigits := (digits_toNat (hhead as)).symm.trans ((congrArg _ h).trans (digits_toNat (hhead bs)))
    exact List.reverse_injective (List.map_injective_iff.2 (fun _ _ => UInt8.toNat_inj.1) hdigits)
  · intro h
    rw [← toNat_dropWhile as, h, toNat_dropWhile]

/-! ## Two's complement -/

/-- One more byte at the end is one more digit, unless it is the one that has the sign. -/
lemma toInt_append_singleton {bs : List UInt8} (h : bs ≠ []) (b : UInt8) :
    toInt (bs ++ [b]) = 256 * toInt bs + b.toNat := by
  have hb := b.toNat_lt
  obtain ⟨k, hk⟩ : ∃ k, 256 ^ bs.length = 2 * k := by
    obtain ⟨c, cs, rfl⟩ := List.exists_cons_of_ne_nil h
    exact ⟨128 * 256 ^ cs.length, by rw [List.length_cons, pow_succ]; ring⟩
  have hk' : (256 : ℤ) ^ bs.length = 2 * k := by exact_mod_cast hk
  rw [toInt, toInt, toNat_append_singleton, List.length_append, List.length_singleton, pow_succ,
    pow_succ, hk, hk']
  split <;> split <;> push_cast <;> omega

/-- The signed bytes of a number are at least one. -/
lemma ofInt_ne_nil (x : ℤ) : ofInt x ≠ [] := by
  rw [ofInt]
  split <;> simp

/-- The last byte of a number is its residue modulo 256. -/
lemma toNat_ofNat_emod (x : ℤ) : ((UInt8.ofNat (x % 256).toNat).toNat : ℤ) = x % 256 := by
  rw [UInt8.toNat_ofNat']
  omega

/-- The shortest two's complement of an integer stands for it. -/
theorem toInt_ofInt (x : ℤ) : toInt (ofInt x) = x := by
  induction x using ofInt.induct with
  | case1 x hx =>
    have hbyte := toNat_ofNat_emod x
    rw [ofInt, if_pos hx]
    generalize UInt8.ofNat (x % 256).toNat = b at hbyte
    have hb : toNat [b] = b.toNat := by simp [toNat]
    rw [toInt, hb, List.length_singleton]
    split <;> omega
  | case2 x hx ih =>
    rw [ofInt, if_neg hx, toInt_append_singleton (ofInt_ne_nil _), ih, toNat_ofNat_emod]
    omega

/-- Numbers with the same signed bytes are the same. -/
lemma ofInt_inj {x y : ℤ} : ofInt x = ofInt y ↔ x = y :=
  ⟨fun h => by rw [← toInt_ofInt x, h, toInt_ofInt], congrArg ofInt⟩

/-- Numbers with the same shortest bytes are the same. -/
lemma ofNat_inj {m n : ℕ} : ofNat m = ofNat n ↔ m = n :=
  ⟨fun h => by rw [← toNat_ofNat m, h, toNat_ofNat], congrArg ofNat⟩

end ProvenTables.Bytes
