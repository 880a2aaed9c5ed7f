import Mathlib.Data.List.TakeWhile
import Mathlib.Tactic
import ProvenTables.Binary64.Basic
import ProvenTables.Text.Numeral

/-!
# Runs of digits

The number that a run of digits stands for, with zeros before and after it.
-/

namespace ProvenTables.Text

/-- The number of two runs of digits. -/
lemma ofDigitChars_append (a b : List Char) :
    Nat.ofDigitChars 10 (a ++ b) 0 =
      10 ^ b.length * Nat.ofDigitChars 10 a 0 + Nat.ofDigitChars 10 b 0 := by
  rw [Nat.ofDigitChars_append, Nat.ofDigitChars_eq_ofDigitChars_zero]

/-- The number of a run of digits with zeros after it. -/
lemma ofDigitChars_append_zeros (a : List Char) (k : ℕ) :
    Nat.ofDigitChars 10 (a ++ List.replicate k '0') 0 = 10 ^ k * Nat.ofDigitChars 10 a 0 := by
  rw [Nat.ofDigitChars_append, Nat.ofDigitChars_replicate_zero]

/-- The number of a run of digits with zeros before it. -/
lemma ofDigitChars_zeros_append (a : List Char) (k : ℕ) :
    Nat.ofDigitChars 10 (List.replicate k '0' ++ a) 0 = Nat.ofDigitChars 10 a 0 := by
  rw [Nat.ofDigitChars_append, Nat.ofDigitChars_replicate_zero, Nat.mul_zero]

/-- A positive number is not written with a zero in front. -/
lemma head?_digits {n : ℕ} (hn : n ≠ 0) : (digits n).head? ≠ some '0' := by
  induction n using Nat.strong_induction_on with
  | _ n ih =>
    rw [digits]
    rcases lt_or_ge n 10 with h | h
    · rw [Nat.toDigits_of_lt_base h]
      interval_cases n <;> simp_all
    · rw [Nat.toDigits_of_base_le (by decide) h,
        List.head?_append_of_ne_nil _ Nat.toDigits_ne_nil]
      exact ih (n / 10) (by omega) (by omega)

/-- A list without the trailing items of a kind, and those items. -/
lemma exists_eq_append_replicate (ds : List Char) (z : Char) :
    ∃ k, ds = (ds.reverse.dropWhile (· == z)).reverse ++ List.replicate k z := by
  refine ⟨(ds.reverse.takeWhile (· == z)).length, ?_⟩
  have hall : ds.reverse.takeWhile (· == z) =
      List.replicate (ds.reverse.takeWhile (· == z)).length z := by
    refine List.eq_replicate_iff.2 ⟨rfl, fun c hc => ?_⟩
    simpa using List.mem_takeWhile_imp hc
  calc ds = ds.reverse.reverse := (List.reverse_reverse ds).symm
    _ = (ds.reverse.takeWhile (· == z) ++ ds.reverse.dropWhile (· == z)).reverse := by
      rw [List.takeWhile_append_dropWhile]
    _ = (ds.reverse.dropWhile (· == z)).reverse ++ (ds.reverse.takeWhile (· == z)).reverse := by
      rw [List.reverse_append]
    _ = _ := by rw [hall, List.reverse_replicate, List.length_replicate]

/-- The text of an integer. -/
lemma toList_toString_int (n : ℤ) :
    (toString n).toList = (if n < 0 then ['-'] else []) ++ digits n.natAbs := by
  cases n with
  | ofNat m => simp [toString, Int.repr, digits]
  | negSucc m => simp [toString, Int.repr, digits]

end ProvenTables.Text
