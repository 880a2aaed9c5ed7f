import Mathlib.Tactic
import ProvenTables.Storage.Retry

/-!
# Waits

The wait after an attempt is a duration that is computed with numbers of 32 and 64 bits. It is the power
of two times the first wait, but at most the longest one, as long as the power has 32 bits; later it does
not grow any more, and `backoff_eq_min_iff` says when it falls short.
-/

namespace ProvenTables

/-! ## Durations -/

namespace Duration

variable {d e : Duration} {n : UInt32}

/-- A length of time is below the one with the greatest seconds and one more. -/
lemma toNanos_lt (d : Duration) : d.toNanos < 2 ^ 64 * 10 ^ 9 := by
  have hseconds := d.seconds.toNat_lt
  have hnanos := d.nanos_lt
  rw [toNanos]
  omega

/-- Lengths of time are compared by their nanoseconds. -/
lemma isLess_iff : d.isLess e = true ↔ d.toNanos < e.toNanos := by
  have hd := d.nanos_lt
  have he := e.nanos_lt
  simp only [isLess, Bool.or_eq_true, Bool.and_eq_true, decide_eq_true_eq, beq_iff_eq,
    UInt64.lt_iff_toNat_lt, UInt32.lt_iff_toNat_lt, ← UInt64.toNat_inj, toNanos]
  omega

/-- The shorter of two lengths has the smaller number of nanoseconds. -/
lemma toNanos_shorter (d e : Duration) : (d.shorter e).toNanos = min d.toNanos e.toNanos := by
  rw [shorter]
  split
  · rename_i h
    exact (Nat.min_eq_right (isLess_iff.1 h).le).symm
  · rename_i h
    exact (Nat.min_eq_left (Nat.not_lt.1 fun hlt => h (isLess_iff.2 hlt))).symm

/-- A product that fits into sixty-four bits is the product. -/
lemma toNat_of_product? {a b c : UInt64} (h : product? a b = some c) : c.toNat = a.toNat * b.toNat := by
  rw [product?] at h
  split at h
  · rename_i hlt
    cases h
    rw [UInt64.toNat_mul, Nat.mod_eq_of_lt hlt]
  · cases h

/-- There is no product of sixty-four bits if it does not fit. -/
lemma le_of_product?_eq_none {a b : UInt64} (h : product? a b = none) :
    2 ^ 64 ≤ a.toNat * b.toNat := by
  rw [product?] at h
  split at h
  · cases h
  · exact Nat.not_lt.1 ‹_›

/-- A sum that fits into sixty-four bits is the sum. -/
lemma toNat_of_sum? {a b c : UInt64} (h : sum? a b = some c) : c.toNat = a.toNat + b.toNat := by
  rw [sum?] at h
  split at h
  · rename_i hlt
    cases h
    rw [UInt64.toNat_add, Nat.mod_eq_of_lt hlt]
  · cases h

/-- There is no sum of sixty-four bits if it does not fit. -/
lemma le_of_sum?_eq_none {a b : UInt64} (h : sum? a b = none) : 2 ^ 64 ≤ a.toNat + b.toNat := by
  rw [sum?] at h
  split at h
  · cases h
  · exact Nat.not_lt.1 ‹_›

/-- The nanoseconds of a multiple, before seconds are taken from them, have 64 bits. -/
lemma toNat_nanos_mul (d : Duration) (n : UInt32) :
    (d.nanos.toUInt64 * n.toUInt64).toNat = d.nanos.toNat * n.toNat := by
  rw [UInt64.toNat_mul, UInt32.toNat_toUInt64, UInt32.toNat_toUInt64]
  refine Nat.mod_eq_of_lt ?_
  calc d.nanos.toNat * n.toNat < 10 ^ 9 * 2 ^ 32 := Nat.mul_lt_mul_of_lt_of_lt d.nanos_lt n.toNat_lt
    _ < 2 ^ 64 := by decide

/-- A multiple that fits is the product. -/
lemma toNanos_of_times? (h : d.times? n = some e) : e.toNanos = d.toNanos * n.toNat := by
  have hnanos := d.toNat_nanos_mul n
  simp only [times?, Option.bind_eq_bind, Option.bind_eq_some_iff, Option.pure_def,
    Option.some.injEq] at h
  obtain ⟨product, hproduct, sum, hsum, rfl⟩ := h
  have hseconds := toNat_of_sum? hsum
  rw [toNat_of_product? hproduct, UInt64.toNat_div, hnanos, UInt32.toNat_toUInt64] at hseconds
  simp only [toNanos, toNat_beside, hseconds, hnanos]
  have hexpand : (d.seconds.toNat * 10 ^ 9 + d.nanos.toNat) * n.toNat =
      d.seconds.toNat * n.toNat * 10 ^ 9 + d.nanos.toNat * n.toNat := by ring
  rw [hexpand, show (1000000000 : UInt64).toNat = 10 ^ 9 from rfl]
  omega

/-- A multiple that does not fit is longer than every duration. -/
lemma le_of_times?_eq_none (h : d.times? n = none) : 2 ^ 64 * 10 ^ 9 ≤ d.toNanos * n.toNat := by
  have hexpand : d.toNanos * n.toNat =
      d.seconds.toNat * n.toNat * 10 ^ 9 + d.nanos.toNat * n.toNat := by
    rw [toNanos]
    ring
  rw [hexpand]
  cases hproduct : product? d.seconds n.toUInt64 with
  | none =>
    have hlarge := le_of_product?_eq_none hproduct
    rw [UInt32.toNat_toUInt64] at hlarge
    omega
  | some product =>
    have hseconds := toNat_of_product? hproduct
    cases hsum : sum? product (d.nanos.toUInt64 * n.toUInt64 / 1000000000) with
    | none =>
      have hlarge := le_of_sum?_eq_none hsum
      rw [hseconds, UInt64.toNat_div, toNat_nanos_mul, UInt32.toNat_toUInt64,
        show (1000000000 : UInt64).toNat = 10 ^ 9 from rfl] at hlarge
      omega
    | some sum => simp [times?, hproduct, hsum] at h

end Duration

/-! ## Waits -/

namespace RetryPolicy

/-- The factor is a power of two below the attempt 32, and the greatest number of 32 bits from there on.
-/
lemma toNat_factor (n : UInt32) :
    (factor n).toNat = if n.toNat < 32 then 2 ^ n.toNat else greatestFactor := by
  rw [factor]
  by_cases hn : n.toNat < 32
  · have hpow : 2 ^ n.toNat < 2 ^ 32 := Nat.pow_lt_pow_right (by decide) hn
    rw [if_pos hn, if_pos (UInt32.lt_iff_toNat_lt.2 hn), UInt32.toNat_shiftLeft, Nat.mod_eq_of_lt hn,
      UInt32.toNat_one, Nat.one_shiftLeft, Nat.mod_eq_of_lt hpow]
  · rw [if_neg hn, if_neg fun hlt => hn (UInt32.lt_iff_toNat_lt.1 hlt)]
    rfl

/-- The wait as a duration is the wait of the policy. -/
theorem toNanos_wait (initial longest : Duration) (attempts n : UInt32) :
    (wait initial longest n).toNanos = (ofDurations initial longest attempts).backoff n.toNat := by
  rw [backoff, ← toNat_factor, wait]
  split
  · rename_i d hd
    rw [Duration.toNanos_shorter, Duration.toNanos_of_times? hd]
    rfl
  · rename_i hnone
    have hlong := longest.toNanos_lt.trans_le (Duration.le_of_times?_eq_none hnone)
    exact (Nat.min_eq_right hlong.le).symm

/-- The factor of a later attempt is not smaller. -/
lemma toNat_factor_mono {n later : UInt32} (h : n ≤ later) :
    (factor n).toNat ≤ (factor later).toNat := by
  have hle := UInt32.le_iff_toNat_le.1 h
  rw [toNat_factor, toNat_factor]
  by_cases hlater : later.toNat < 32
  · rw [if_pos hlater, if_pos (hle.trans_lt hlater)]
    exact Nat.pow_le_pow_right (by decide) hle
  · rw [if_neg hlater]
    split
    · rename_i hn
      calc 2 ^ n.toNat ≤ 2 ^ 31 := Nat.pow_le_pow_right (by decide) (Nat.le_of_lt_succ hn)
        _ ≤ greatestFactor := by decide
    · exact le_rfl

/-- From the attempt 32 on the factor is less than the power. -/
lemma greatestFactor_lt {n : ℕ} (hn : 32 ≤ n) : greatestFactor < 2 ^ n :=
  calc greatestFactor < 2 ^ 32 := by decide
    _ ≤ 2 ^ n := Nat.pow_le_pow_right (by decide) hn

/-- A lesser factor gives the same wait if and only if there is nothing to wait or the wait is already
the longest one. -/
lemma min_mul_eq_iff {initial longest f g : ℕ} (h : f < g) :
    min (initial * f) longest = min (initial * g) longest ↔ initial = 0 ∨ longest ≤ initial * f := by
  constructor
  · intro heq
    by_contra hnot
    obtain ⟨hinitial, hlong⟩ := not_or.1 hnot
    have hless : initial * f < initial * g := Nat.mul_lt_mul_of_pos_left h (Nat.pos_of_ne_zero hinitial)
    omega
  · rintro (rfl | hlong)
    · rw [Nat.zero_mul, Nat.zero_mul]
    · have hless : initial * f ≤ initial * g := Nat.mul_le_mul_left _ h.le
      omega

/-- The wait after an attempt is computed without overflow. It is the lesser of the longest wait and the
power of two times the first one, both computed exactly, if and only if the power has 32 bits, there is
nothing to wait, or the longest wait is reached before that; otherwise it is the first wait times the
last number of 32 bits. It never gets shorter from attempt to attempt, and it is never longer than the
longest wait. -/
theorem backoff_eq_min_iff (initial longest : Duration) (attempts n : UInt32) :
    (wait initial longest n).toNanos = (ofDurations initial longest attempts).backoff n.toNat ∧
      ((wait initial longest n).toNanos = min (initial.toNanos * 2 ^ n.toNat) longest.toNanos ↔
        n.toNat < 32 ∨ initial.toNanos = 0 ∨ longest.toNanos ≤ initial.toNanos * (2 ^ 32 - 1)) ∧
      (32 ≤ n.toNat → (wait initial longest n).toNanos =
        min (initial.toNanos * (2 ^ 32 - 1)) longest.toNanos) ∧
      (wait initial longest n).toNanos ≤ longest.toNanos ∧
      ∀ later, n ≤ later → (wait initial longest n).toNanos ≤ (wait initial longest later).toNanos := by
  have hwait : ∀ n, (wait initial longest n).toNanos =
      min (initial.toNanos * (factor n).toNat) longest.toNanos := by
    intro n
    rw [toNanos_wait initial longest attempts, backoff, ← toNat_factor]
    rfl
  refine ⟨toNanos_wait initial longest attempts n, ?_, fun hn => ?_, ?_, fun later hlater => ?_⟩
  · rw [hwait, toNat_factor]
    by_cases hn : n.toNat < 32
    · simp only [hn, ↓reduceIte, true_or]
    · simp only [hn, ↓reduceIte, false_or]
      exact min_mul_eq_iff (greatestFactor_lt (Nat.not_lt.1 hn))
  · rw [hwait, toNat_factor, if_neg (Nat.not_lt.2 hn)]
    rfl
  · rw [hwait]
    exact min_le_right _ _
  · rw [hwait, hwait]
    exact min_le_min_right _ (Nat.mul_le_mul_left _ (toNat_factor_mono hlater))

/-- One millisecond. -/
def millisecond : Duration := ⟨0, 1000000, by decide⟩

/-- Ten million seconds. -/
def tenMillionSeconds : Duration := ⟨10000000, 0, by decide⟩

/-- A first wait of a millisecond that may grow to ten million seconds does not grow with the attempt
32. -/
theorem backoff_eq_min_iff_patient :
    (31 : UInt32) ≤ 32 ∧ 32 ≤ (32 : UInt32).toNat ∧
      (wait millisecond tenMillionSeconds 31).toNanos ≤
        (wait millisecond tenMillionSeconds 32).toNanos ∧
      (wait millisecond tenMillionSeconds 31).toNanos = 2 ^ 31 * 10 ^ 6 ∧
      (wait millisecond tenMillionSeconds 32).toNanos = (2 ^ 32 - 1) * 10 ^ 6 := by
  have hstep : (31 : UInt32) ≤ 32 := by decide
  have hlate : 32 ≤ (32 : UInt32).toNat := by decide
  obtain ⟨-, hexact, -, -, hgrows⟩ := backoff_eq_min_iff millisecond tenMillionSeconds 8 31
  obtain ⟨-, -, hsame, -⟩ := backoff_eq_min_iff millisecond tenMillionSeconds 8 32
  refine ⟨hstep, hlate, hgrows 32 hstep, ?_, ?_⟩
  · exact (hexact.2 (.inl (by decide))).trans (by decide)
  · exact (hsame hlate).trans (by decide)

end RetryPolicy

end ProvenTables
