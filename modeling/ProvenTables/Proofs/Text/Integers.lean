import ProvenTables.Proofs.Binary64.Text

/-!
# Texts of integers

A number is determined by its digits and an integer by its text. Digits that follow those of a number make a
greater one.
-/

namespace ProvenTables.Text

/-- Numbers with the same digits are the same. -/
lemma digits_inj {m n : ℕ} : digits m = digits n ↔ m = n := by
  refine ⟨fun h => ?_, fun h => h ▸ rfl⟩
  have hread := readNat?_digits m
  rw [h, readNat?_digits] at hread
  exact (Option.some.inj hread).symm

/-- Integers with the same text are the same. -/
lemma toString_int_inj {m n : ℤ} : (toString m).toList = (toString n).toList ↔ m = n := by
  refine ⟨fun h => ?_, fun h => h ▸ rfl⟩
  have hread := readInt?_toString m
  rw [h, readInt?_toString] at hread
  exact (Option.some.inj hread).symm

/-- The text of an integer that is not negative is its digits. -/
lemma toList_toString_of_nonneg {n : ℤ} (h : 0 ≤ n) : (toString n).toList = digits n.natAbs := by
  rw [toList_toString_int, if_neg (not_lt.2 h), List.nil_append]

/-- Only the text of a negative integer has a character that is no digit. -/
lemma nonneg_of_forall_isDigit {n : ℤ} (h : ∀ c ∈ (toString n).toList, c.isDigit = true) : 0 ≤ n := by
  by_contra hneg
  rw [toList_toString_int, if_pos (not_le.1 hneg)] at h
  exact absurd (h '-' List.mem_cons_self) (by decide)

/-- The number with more digits is the greater. -/
lemma lt_of_length_digits_lt {m n : ℕ} (h : (digits m).length < (digits n).length) : m < n := by
  by_contra hle
  have hpos : 0 < (digits m).length := List.length_pos_iff.2 (digits_ne_nil m)
  have hm : m < 10 ^ (digits m).length := (Nat.length_toDigits_le_iff (by decide) hpos).1 le_rfl
  have hn : (digits n).length ≤ (digits m).length :=
    (Nat.length_toDigits_le_iff (by decide) hpos).2 ((not_lt.1 hle).trans_lt hm)
  exact absurd h (not_lt.2 hn)

/-- No other digits follow a zero. -/
lemma pos_of_digits_append {p q : ℕ} {ds : List Char} (h : digits q = digits p ++ ds) (hne : ds ≠ []) :
    0 < p := by
  refine Nat.pos_of_ne_zero fun hp => ?_
  have hzero : digits 0 = ['0'] := by decide
  rw [hp, hzero, List.singleton_append] at h
  obtain rfl : q = 0 := by
    by_contra hq
    exact head?_digits hq (by rw [h, List.head?_cons])
  rw [hzero] at h
  exact hne (List.cons.inj h).2.symm

end ProvenTables.Text
