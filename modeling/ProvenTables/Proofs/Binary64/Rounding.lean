import Mathlib.Tactic
import ProvenTables.Binary64.Decimal

/-!
# Rounding of decimals

Rounding to binary64 depends on the value of a ratio alone, and a number whose significand is whole
is not rounded. Main statement: the shortest decimal of a finite number reads back as that number
(`ofDecimal_shortestDecimal`).
-/

namespace ProvenTables

namespace Tie

/-- Whether a ratio is rounded up depends on its value alone. -/
lemma roundsUp_mul {tie : Tie} {num den k : Nat} (hk : 0 < k) :
    tie.roundsUp (num * k) (den * k) = tie.roundsUp num den := by
  have hd : num * k / (den * k) = num / den := Nat.mul_div_mul_right _ _ hk
  have hm : num * k % (den * k) = num % den * k := Nat.mul_mod_mul_right _ _ _
  have hl : den * k < 2 * (num % den * k) ↔ den < 2 * (num % den) := by
    rw [← Nat.mul_assoc]; exact Nat.mul_lt_mul_right hk
  have he : den * k = 2 * (num % den * k) ↔ den = 2 * (num % den) := by
    rw [← Nat.mul_assoc]; exact Nat.mul_left_inj hk.ne'
  simp only [roundsUp, hd, hm, hl, Bool.beq_eq_decide_eq, he]

/-- Rounding a quotient does not depend on a common factor. -/
lemma roundDiv_mul {tie : Tie} {num den k : Nat} (hk : 0 < k) :
    tie.roundDiv (num * k) (den * k) = tie.roundDiv num den := by
  simp only [roundDiv, roundsUp_mul hk, Nat.mul_div_mul_right _ _ hk]

/-- Rounding depends only on the value of the quotient. -/
lemma roundDiv_congr {tie : Tie} {n d n' d' : Nat} (hd : 0 < d) (hd' : 0 < d')
    (h : n * d' = n' * d) : tie.roundDiv n d = tie.roundDiv n' d' := by
  rw [← roundDiv_mul hd', h, Nat.mul_comm d d', roundDiv_mul hd]

/-- A quotient without a remainder is rounded to itself. -/
lemma roundDiv_exact {tie : Tie} {m d : Nat} (hd : 0 < d) : tie.roundDiv (m * d) d = m := by
  have : tie.roundsUp (m * d) d = false := by
    simp only [roundsUp, Nat.mul_mod_left, Nat.mul_zero, Nat.not_lt_zero, decide_false,
      Bool.false_or, Bool.and_eq_false_imp, beq_iff_eq]
    omega
  rw [roundDiv, this, Nat.mul_div_cancel _ hd]
  rfl

/-- A quotient below one half is rounded to zero. -/
lemma roundDiv_of_small {tie : Tie} {n d : Nat} (h : 2 * n < d) : tie.roundDiv n d = 0 := by
  have hq : n / d = 0 := Nat.div_eq_of_lt (by omega)
  have hr : n % d = n := Nat.mod_eq_of_lt (by omega)
  have he : (d == 2 * n) = false := beq_false_of_ne (by omega)
  have hu : tie.roundsUp n d = false := by
    simp only [roundsUp, hr, he, Bool.false_and, Bool.or_false, decide_eq_false_iff_not]
    omega
  rw [roundDiv, hq, hu]
  rfl

/-- Rounding gives at most one more than the quotient that is rounded down. -/
lemma roundDiv_le (tie : Tie) (n d : Nat) : tie.roundDiv n d ≤ n / d + 1 := by
  unfold roundDiv
  split <;> omega

end Tie

namespace Binary64

/-! ## Exponents -/

/-- The exponent under which a ratio has a significand of 53 bits, or the least exponent. -/
def IsExponent (q : ℚ) (t : ℤ) : Prop :=
  -1074 ≤ t ∧ q < 2 ^ (t + 53) ∧ (t = -1074 ∨ 2 ^ (t + 52) ≤ q)

/-- No exponent of a number is above another one. -/
lemma IsExponent.le {q : ℚ} {t u : ℤ} (ht : IsExponent q t) (hu : IsExponent q u) : t ≤ u := by
  by_contra! h
  obtain ⟨ht1, ht2, ht3⟩ := ht
  obtain ⟨hu1, hu2, hu3⟩ := hu
  rcases ht3 with rfl | ht3
  · omega
  · have : (2 : ℚ) ^ (u + 53) ≤ 2 ^ (t + 52) := zpow_le_zpow_right₀ (by norm_num) (by omega)
    linarith

/-- A number has one exponent. -/
lemma IsExponent.unique {q : ℚ} {t u : ℤ} (ht : IsExponent q t) (hu : IsExponent q u) : t = u :=
  le_antisymm (ht.le hu) (hu.le ht)


/-- A power of two is a quotient of powers with natural exponents. -/
lemma two_pow_toNat (t : ℤ) : (2 : ℚ) ^ t.toNat = 2 ^ t * 2 ^ (-t).toNat := by
  rcases le_total 0 t with h | h
  · lift t to ℕ using h
    simp
  · obtain ⟨n, rfl⟩ : ∃ n : ℕ, t = -n := ⟨t.natAbs, by omega⟩
    simp

section

variable {n d : ℕ} {t : ℤ}

/-- Comparing scaled integers from below is comparing the quotient with a power of two. -/
lemma le_scaled_iff (hd : 0 < d) (k : ℕ) :
    d * 2 ^ t.toNat * 2 ^ k ≤ n * 2 ^ (-t).toNat ↔ (2 : ℚ) ^ (t + k) ≤ n / d := by
  have hp : (0 : ℚ) < 2 ^ (-t).toNat := by positivity
  have hd' : (0 : ℚ) < d := by exact_mod_cast hd
  rw [le_div_iff₀ hd', ← Nat.cast_le (α := ℚ)]
  push_cast
  rw [two_pow_toNat t, zpow_add₀ two_ne_zero, zpow_natCast,
    show (d : ℚ) * (2 ^ t * 2 ^ (-t).toNat) * 2 ^ k = 2 ^ t * 2 ^ k * d * 2 ^ (-t).toNat by ring,
    mul_le_mul_iff_of_pos_right hp]

/-- Comparing scaled integers from above is comparing the quotient with a power of two. -/
lemma scaled_lt_iff (hd : 0 < d) (k : ℕ) :
    n * 2 ^ (-t).toNat < d * 2 ^ t.toNat * 2 ^ k ↔ (n / d : ℚ) < 2 ^ (t + k) := by
  rw [← not_le, ← not_le, le_scaled_iff hd]

/-- The significand of a ratio under an exponent. -/
def significandAt (n d : ℕ) (t : ℤ) : ℕ :=
  Tie.toEven.roundDiv (n * 2 ^ (-t).toNat) (d * 2 ^ t.toNat)

/-- Halving before rounding gives the significand at the next exponent. -/
lemma significandAt_succ (hd : 0 < d) :
    Tie.toEven.roundDiv (n * 2 ^ (-t).toNat) (2 * (d * 2 ^ t.toNat)) = significandAt n d (t + 1) := by
  have hpow : 2 ^ (-t).toNat * 2 ^ (t + 1).toNat = 2 ^ (-(t + 1)).toNat * (2 * 2 ^ t.toNat) := by
    rcases le_or_gt 0 t with h | h
    · rw [show (-t).toNat = 0 by omega, show (-(t + 1)).toNat = 0 by omega,
        show (t + 1).toNat = t.toNat + 1 by omega, pow_succ, Nat.mul_comm 2]
    · rw [show t.toNat = 0 by omega, show (t + 1).toNat = 0 by omega,
        show (-t).toNat = (-(t + 1)).toNat + 1 by omega, pow_succ, pow_zero, Nat.mul_assoc]
  refine Tie.roundDiv_congr (by positivity) (by positivity) ?_
  calc n * 2 ^ (-t).toNat * (d * 2 ^ (t + 1).toNat)
      = n * d * (2 ^ (-t).toNat * 2 ^ (t + 1).toNat) := by ring
    _ = n * d * (2 ^ (-(t + 1)).toNat * (2 * 2 ^ t.toNat)) := by rw [hpow]
    _ = n * 2 ^ (-(t + 1)).toNat * (2 * (d * 2 ^ t.toNat)) := by ring

/-- The bits of the numerator and of the denominator tell the size of a ratio up to a factor of four. -/
lemma log2_ratio (hn : 0 < n) (hd : 0 < d) :
    (2 : ℚ) ^ ((n.log2 : ℤ) - d.log2 - 1) ≤ n / d ∧
      (n / d : ℚ) < 2 ^ ((n.log2 : ℤ) - d.log2 + 1) := by
  have hd' : (0 : ℚ) < d := by exact_mod_cast hd
  have hn1 : (2 : ℚ) ^ (n.log2 : ℤ) ≤ n := by exact_mod_cast Nat.log2_self_le hn.ne'
  have hn2 : (n : ℚ) < 2 ^ ((n.log2 : ℤ) + 1) := by exact_mod_cast Nat.lt_log2_self (n := n)
  have hd1 : (2 : ℚ) ^ (d.log2 : ℤ) ≤ d := by exact_mod_cast Nat.log2_self_le hd.ne'
  have hd2 : (d : ℚ) < 2 ^ ((d.log2 : ℤ) + 1) := by exact_mod_cast Nat.lt_log2_self (n := d)
  constructor
  · rw [le_div_iff₀ hd']
    calc (2 : ℚ) ^ ((n.log2 : ℤ) - d.log2 - 1) * d
        ≤ 2 ^ ((n.log2 : ℤ) - d.log2 - 1) * 2 ^ ((d.log2 : ℤ) + 1) := by gcongr
      _ = 2 ^ (n.log2 : ℤ) := by rw [← zpow_add₀ two_ne_zero]; congr 1; ring
      _ ≤ n := hn1
  · rw [div_lt_iff₀ hd']
    calc (n : ℚ) < 2 ^ ((n.log2 : ℤ) + 1) := hn2
      _ = 2 ^ ((n.log2 : ℤ) - d.log2 + 1) * 2 ^ (d.log2 : ℤ) := by
        rw [← zpow_add₀ two_ne_zero]; congr 1; ring
      _ ≤ 2 ^ ((n.log2 : ℤ) - d.log2 + 1) * d := by gcongr

/-- Rounding a ratio under its exponent. -/
lemma ofRatio_of_isExponent {negative : Bool} (hn : 0 < n) (hd : 0 < d)
    (ht : IsExponent (n / d) t) :
    ofRatio negative n d = ofMagnitude negative
      (min ((t + 1074).toNat * 2 ^ 52 + significandAt n d t) infinityMagnitude) := by
  obtain ⟨hlow, hhigh⟩ := log2_ratio hn hd
  obtain ⟨s, hs⟩ : ∃ s : ℤ, s = max ((n.log2 : ℤ) - d.log2 - 53) (-1074) := ⟨_, rfl⟩
  have hs1 : -1074 ≤ s := by omega
  have htop : (n / d : ℚ) < 2 ^ (s + 54) :=
    hhigh.trans_le (zpow_le_zpow_right₀ (by norm_num) (by omega))
  simp only [ofRatio, hn.ne', ↓reduceIte, ← hs]
  by_cases hw : d * 2 ^ s.toNat * 2 ^ 53 ≤ n * 2 ^ (-s).toNat
  · -- one bit too many: the exponent is the next one
    have hq : (2 : ℚ) ^ (s + 53) ≤ n / d := (le_scaled_iff hd 53).1 hw
    have hx : IsExponent (n / d) (s + 1) :=
      ⟨by omega, by rwa [add_assoc], .inr (by rwa [add_assoc])⟩
    obtain rfl : t = s + 1 := ht.unique hx
    simp only [hw, decide_true, ↓reduceIte, significandAt_succ hd]
    rw [show (s + 1 + 1074).toNat = (s + 1074).toNat + 1 by omega]
  · have hq : (n / d : ℚ) < 2 ^ (s + 53) := (scaled_lt_iff hd 53).1 (not_le.1 hw)
    have hx : IsExponent (n / d) s := by
      refine ⟨hs1, hq, ?_⟩
      rcases le_or_gt ((n.log2 : ℤ) - d.log2 - 53) (-1074) with h | h
      · exact .inl (by omega)
      · exact .inr (by rwa [show s + 52 = (n.log2 : ℤ) - d.log2 - 1 by omega])
    obtain rfl : t = s := ht.unique hx
    simp only [hw, decide_false, Bool.false_eq_true, ↓reduceIte, Nat.add_zero, significandAt]

/-- Every positive ratio has an exponent. -/
lemma exists_isExponent (hn : 0 < n) (hd : 0 < d) : ∃ t, IsExponent (n / d) t := by
  have hq : (0 : ℚ) < n / d := by positivity
  obtain ⟨u, hu1, hu2⟩ := exists_mem_Ico_zpow hq one_lt_two
  rcases le_or_gt (u - 52) (-1074) with h | h
  · refine ⟨-1074, le_rfl, hu2.trans_le (zpow_le_zpow_right₀ one_le_two (by omega)), .inl rfl⟩
  · refine ⟨u - 52, h.le, ?_, .inr ?_⟩
    · rwa [show u - 52 + 53 = u + 1 by omega]
    · rwa [show u - 52 + 52 = u by omega]

/-- Rounding depends on the value of a ratio alone. -/
lemma ofRatio_congr {negative : Bool} {n' d' : ℕ} (hd : 0 < d) (hd' : 0 < d')
    (h : n * d' = n' * d) : ofRatio negative n d = ofRatio negative n' d' := by
  rcases Nat.eq_zero_or_pos n with rfl | hn
  · obtain rfl : n' = 0 := by
      rcases Nat.mul_eq_zero.1 (h.symm.trans (Nat.zero_mul _)) with h | h
      · exact h
      · omega
    simp [ofRatio]
  · have hn' : 0 < n' := by
      rcases Nat.eq_zero_or_pos n' with rfl | hn'
      · have : 0 < n * d' := by positivity
        omega
      · exact hn'
    have hq : (n / d : ℚ) = n' / d' := by
      rw [div_eq_div_iff (by positivity) (by positivity)]
      exact_mod_cast h
    obtain ⟨t, ht⟩ := exists_isExponent hn hd
    have hs : significandAt n d t = significandAt n' d' t := by
      refine Tie.roundDiv_congr (by positivity) (by positivity) ?_
      calc n * 2 ^ (-t).toNat * (d' * 2 ^ t.toNat)
          = n * d' * (2 ^ (-t).toNat * 2 ^ t.toNat) := by ring
        _ = n' * 2 ^ (-t).toNat * (d * 2 ^ t.toNat) := by rw [h]; ring
    rw [ofRatio_of_isExponent hn hd ht, ofRatio_of_isExponent hn' hd' (hq ▸ ht), hs]

/-- A ratio that has its significand in whole is not rounded. -/
lemma ofRatio_exact {negative : Bool} {m : ℕ} (hm : 0 < m) (ht : -1074 ≤ t) (hm53 : m < 2 ^ 53)
    (hm52 : t = -1074 ∨ 2 ^ 52 ≤ m) :
    ofRatio negative (m * 2 ^ t.toNat) (2 ^ (-t).toNat) = ofMagnitude negative
      (min ((t + 1074).toNat * 2 ^ 52 + m) infinityMagnitude) := by
  have hq : ((m * 2 ^ t.toNat : ℕ) / (2 ^ (-t).toNat : ℕ) : ℚ) = m * 2 ^ t := by
    push_cast
    rw [two_pow_toNat t]
    field_simp
  have hx : IsExponent ((m * 2 ^ t.toNat : ℕ) / (2 ^ (-t).toNat : ℕ) : ℚ) t := by
    have hpos : (0 : ℚ) < 2 ^ t := by positivity
    rw [hq]
    refine ⟨ht, ?_, hm52.imp_right fun h => ?_⟩
    · rw [zpow_add₀ two_ne_zero, mul_comm, mul_lt_mul_iff_right₀ hpos]
      exact_mod_cast hm53
    · rw [zpow_add₀ two_ne_zero, mul_comm _ ((2 : ℚ) ^ t), mul_le_mul_iff_right₀ hpos]
      exact_mod_cast h
  have hs : significandAt (m * 2 ^ t.toNat) (2 ^ (-t).toNat) t = m := by
    rw [significandAt, show m * 2 ^ t.toNat * 2 ^ (-t).toNat
      = m * (2 ^ (-t).toNat * 2 ^ t.toNat) by ring, Tie.roundDiv_exact (by positivity)]
  rw [ofRatio_of_isExponent (by positivity) (by positivity) hx, hs]

/-- A ratio beyond all finite numbers is infinite. -/
lemma ofRatio_of_large {negative : Bool} (hd : 0 < d) (h : (2 : ℚ) ^ (1100 : ℤ) ≤ n / d) :
    ofRatio negative n d = infinity negative := by
  have hn : 0 < n := by
    refine Nat.pos_of_ne_zero fun h0 => ?_
    rw [h0, Nat.cast_zero, zero_div] at h
    exact absurd h (not_le.2 (by positivity))
  obtain ⟨t, ht⟩ := exists_isExponent hn hd
  have ht' : 1047 < t := by
    have := (zpow_lt_zpow_iff_right₀ (one_lt_two (α := ℚ))).1 (h.trans_lt ht.2.1)
    omega
  have hbig : infinityMagnitude ≤ (t + 1074).toNat * 2 ^ 52 + significandAt n d t := by
    have : 2047 ≤ (t + 1074).toNat := by omega
    simp only [infinityMagnitude]
    omega
  rw [ofRatio_of_isExponent hn hd ht, min_eq_right hbig, infinity]

/-- A ratio below half of the least positive number is zero. -/
lemma ofRatio_of_small {negative : Bool} (hd : 0 < d) (h : (n / d : ℚ) < 2 ^ (-1075 : ℤ)) :
    ofRatio negative n d = ofMagnitude negative 0 := by
  rcases Nat.eq_zero_or_pos n with rfl | hn
  · simp [ofRatio]
  obtain ⟨t, ht⟩ := exists_isExponent hn hd
  have ht' : t = -1074 := by
    rcases ht.2.2 with h' | h'
    · exact h'
    · have := (zpow_lt_zpow_iff_right₀ (one_lt_two (α := ℚ))).1 (h'.trans_lt h)
      have := ht.1
      omega
  have hlt : 2 * (n * 2 ^ (-t).toNat) < d * 2 ^ t.toNat := by
    have h2 : ((2 * n : ℕ) / d : ℚ) < 2 ^ (t + (0 : ℕ)) := by
      push_cast
      rw [mul_div_assoc, show t + 0 = -1075 + 1 by omega, zpow_add_one₀ two_ne_zero, mul_comm]
      gcongr
    have h3 := (scaled_lt_iff hd 0).2 h2
    rwa [pow_zero, Nat.mul_one, Nat.mul_assoc] at h3
  have hz : significandAt n d t = 0 := Tie.roundDiv_of_small hlt
  rw [ofRatio_of_isExponent hn hd ht, hz, show (t + 1074).toNat = 0 by omega]
  simp

end

end Binary64

/-! ## Decimals -/

/-- A power of ten is a quotient of powers with natural exponents. -/
lemma ten_pow_toNat (e : ℤ) : (10 : ℚ) ^ e.toNat = 10 ^ e * 10 ^ (-e).toNat := by
  rcases le_total 0 e with h | h
  · lift e to ℕ using h
    simp
  · obtain ⟨n, rfl⟩ : ∃ n : ℕ, e = -n := ⟨e.natAbs, by omega⟩
    simp

namespace Decimal

/-- The value of a decimal. -/
def value (d : Decimal) : ℚ := d.coefficient * 10 ^ d.exponent

/-- The value of a decimal is a quotient of natural numbers. -/
lemma value_eq_div (d : Decimal) :
    d.value = (d.coefficient * 10 ^ d.exponent.toNat : ℕ) / (10 ^ (-d.exponent).toNat : ℕ) := by
  push_cast
  rw [ten_pow_toNat d.exponent, value]
  field_simp

/-- A decimal is zero if and only if its coefficient is. -/
lemma value_eq_zero (d : Decimal) : d.value = 0 ↔ d.coefficient = 0 := by
  have h10 : (10 : ℚ) ^ d.exponent ≠ 0 := by positivity
  simp [value, h10]

end Decimal

namespace Binary64

/-- A negative power of ten is below the power of eight with the same exponent. -/
lemma ten_zpow_le {e : ℤ} (h : e ≤ 0) : (10 : ℚ) ^ e ≤ 2 ^ (3 * e) := by
  have h8 : (8 : ℚ) ^ (-e) ≤ 10 ^ (-e) :=
    zpow_le_zpow_left₀ (by omega) (by norm_num) (by norm_num)
  have hinv := inv_anti₀ (by positivity) h8
  rw [zpow_neg, zpow_neg, inv_inv, inv_inv] at hinv
  rw [zpow_mul]
  exact hinv.trans_eq (by norm_num)

/-- The bounds on the exponent change nothing. -/
lemma ofDecimal_eq_ofRatio {negative : Bool} {d : Decimal} (hc : d.coefficient ≠ 0) :
    ofDecimal negative d =
      ofRatio negative (d.coefficient * 10 ^ d.exponent.toNat) (10 ^ (-d.exponent).toNat) := by
  have hv := d.value_eq_div
  have hc1 : (1 : ℚ) ≤ d.coefficient := by exact_mod_cast Nat.one_le_iff_ne_zero.2 hc
  simp only [ofDecimal, hc, ↓reduceIte]
  split
  · rename_i h
    refine (ofRatio_of_large (by positivity) ?_).symm
    rw [← hv, Decimal.value]
    calc (2 : ℚ) ^ (1100 : ℤ) ≤ 2 ^ (3 * 401 : ℤ) := zpow_le_zpow_right₀ one_le_two (by norm_num)
      _ = 8 ^ (401 : ℤ) := by rw [zpow_mul]; norm_num
      _ ≤ 10 ^ (401 : ℤ) := zpow_le_zpow_left₀ (by norm_num) (by norm_num) (by norm_num)
      _ ≤ 10 ^ d.exponent := zpow_le_zpow_right₀ (by norm_num) (by omega)
      _ ≤ d.coefficient * 10 ^ d.exponent := le_mul_of_one_le_left (by positivity) hc1
  split
  · rename_i h
    refine (ofRatio_of_small (by positivity) ?_).symm
    rw [← hv, Decimal.value]
    have hlog : (d.coefficient : ℚ) < 2 ^ ((d.coefficient.log2 : ℤ) + 1) := by
      exact_mod_cast Nat.lt_log2_self (n := d.coefficient)
    have hten := ten_zpow_le (e := d.exponent) (by omega)
    calc (d.coefficient : ℚ) * 10 ^ d.exponent
        < 2 ^ ((d.coefficient.log2 : ℤ) + 1) * 10 ^ d.exponent := by gcongr
      _ ≤ 2 ^ ((d.coefficient.log2 : ℤ) + 1) * 2 ^ (3 * d.exponent) := by gcongr
      _ = 2 ^ ((d.coefficient.log2 : ℤ) + 1 + 3 * d.exponent) := (zpow_add₀ two_ne_zero _ _).symm
      _ < 2 ^ (-1075 : ℤ) := zpow_lt_zpow_right₀ one_lt_two (by omega)
  · rfl

/-- Reading depends on the value of a decimal alone. -/
lemma ofDecimal_congr {negative : Bool} {d d' : Decimal} (h : d.value = d'.value) :
    ofDecimal negative d = ofDecimal negative d' := by
  rcases eq_or_ne d.coefficient 0 with hc | hc
  · have hc' : d'.coefficient = 0 := by rw [← d'.value_eq_zero, ← h, d.value_eq_zero, hc]
    simp [ofDecimal, hc, hc']
  · have hc' : d'.coefficient ≠ 0 := fun h0 => hc (by rw [← d.value_eq_zero, h, d'.value_eq_zero, h0])
    rw [ofDecimal_eq_ofRatio hc, ofDecimal_eq_ofRatio hc']
    refine ofRatio_congr (by positivity) (by positivity) ?_
    rw [Decimal.value_eq_div, Decimal.value_eq_div,
      div_eq_div_iff (by positivity) (by positivity)] at h
    exact_mod_cast h

/-! ## Magnitudes -/

/-- The magnitude has at most sixty-three bits. -/
lemma magnitude_lt (x : Binary64) : x.magnitude < 2 ^ 63 := Nat.mod_lt _ (by positivity)

/-- The magnitude of a number is the one that it is made of. -/
lemma magnitude_ofMagnitude {negative : Bool} {m : ℕ} (h : m < 2 ^ 63) :
    (ofMagnitude negative m).magnitude = m := by
  cases negative <;> simp [magnitude, ofMagnitude] <;> omega

/-- A number is made of its sign and its magnitude. -/
lemma ofMagnitude_magnitude (x : Binary64) : ofMagnitude x.isNegative x.magnitude = x := by
  have hlt : x.bits.toNat < 2 ^ 64 := x.bits.toNat_lt
  have hbits : x.magnitude + (if x.isNegative then 2 ^ 63 else 0) = x.bits.toNat := by
    simp only [magnitude, isNegative, decide_eq_true_eq]
    split <;> omega
  rw [ofMagnitude, hbits]
  simp

/-- The sign of what is read is the sign that is given. -/
lemma ofDecimal_sign {negative : Bool} {d : Decimal} {x : Binary64}
    (h : ofDecimal false d = x.abs) : ofDecimal negative d = ofMagnitude negative x.magnitude := by
  obtain ⟨m, hm, hd⟩ : ∃ m < 2 ^ 63, ∀ s, ofDecimal s d = ofMagnitude s m := by
    have hinf : infinityMagnitude < 2 ^ 63 := by decide
    rcases eq_or_ne d.coefficient 0 with hc | hc
    · exact ⟨0, by positivity, fun s => by simp [ofDecimal, hc]⟩
    · obtain ⟨t, ht⟩ := exists_isExponent (n := d.coefficient * 10 ^ d.exponent.toNat)
        (d := 10 ^ (-d.exponent).toNat) (by positivity) (by positivity)
      exact ⟨_, (min_le_right _ _).trans_lt hinf, fun s => (ofDecimal_eq_ofRatio hc).trans
        (ofRatio_of_isExponent (by positivity) (by positivity) ht)⟩
  rw [hd, abs] at h
  have := congrArg magnitude h
  rw [magnitude_ofMagnitude hm, magnitude_ofMagnitude x.magnitude_lt] at this
  rw [hd, this]

/-! ## Shortest decimals -/

section

variable {x : Binary64}

/-- The scale of a number is read from the bits of its exponent. -/
lemma scale_eq (x : Binary64) : x.scale = (max (x.magnitude / 2 ^ 52) 1 : ℕ) - 1075 := rfl

/-- A finite number is the rounding of its own value. -/
lemma ofRatio_ratio (hx : x.isFinite) (hz : x.isZero = false) :
    ofRatio false x.ratio.1 x.ratio.2 = x.abs := by
  have hfin : x.magnitude < 2047 * 2 ^ 52 := of_decide_eq_true hx
  have hpos : x.magnitude ≠ 0 := by simpa [isZero] using hz
  have hsig : 0 < x.significand := by
    simp only [significand]
    split <;> omega
  have hsig53 : x.significand < 2 ^ 53 := by
    simp only [significand]
    split <;> omega
  have hscale : x.scale = -1074 ∨ 2 ^ 52 ≤ x.significand := by
    simp only [significand, scale_eq]
    split <;> omega
  have hmin : -1074 ≤ x.scale := by
    rw [scale_eq]
    omega
  have hmag : (x.scale + 1074).toNat * 2 ^ 52 + x.significand = x.magnitude := by
    simp only [significand, scale_eq]
    split <;> omega
  rw [ratio, ofRatio_exact hsig hmin hsig53 hscale, hmag, min_eq_left, abs]
  exact hfin.le

/-- A finite number is read back from all its digits. -/
lemma ofDecimal_exactDecimal (hx : x.isFinite) (hz : x.isZero = false) :
    ofDecimal false x.exactDecimal = x.abs := by
  have hpos : x.magnitude ≠ 0 := by simpa [isZero] using hz
  have hsig : 0 < x.significand := by
    simp only [significand]
    split <;> omega
  have hval : x.exactDecimal.value = (x.ratio.1 : ℚ) / x.ratio.2 := by
    simp only [Decimal.value, exactDecimal, ratio]
    rcases le_total 0 x.scale with h | h
    · simp [min_eq_right h, show (-x.scale).toNat = 0 by omega]
    · obtain ⟨k, hk⟩ : ∃ k : ℕ, x.scale = -k := ⟨x.scale.natAbs, by omega⟩
      have h10 : (10 : ℚ) ^ k = 2 ^ k * 5 ^ k := by rw [← mul_pow]; norm_num
      simp only [hk, Int.toNat_neg_natCast, pow_zero, Nat.mul_one, neg_neg, Int.toNat_natCast,
        min_eq_left (by omega : -(k : ℤ) ≤ 0), zpow_neg, zpow_natCast, h10]
      push_cast
      field_simp
  rw [ofDecimal_eq_ofRatio (by simp only [exactDecimal]; positivity), ← ofRatio_ratio hx hz]
  refine ofRatio_congr (by positivity) (by simp only [ratio]; positivity) ?_
  rw [Decimal.value_eq_div, div_eq_div_iff (by positivity) (by simp only [ratio]; positivity)]
    at hval
  exact_mod_cast hval

/-- The shortest decimal of a finite number reads back. -/
lemma ofDecimal_shortestDecimal (tie : Tie) (hx : x.isFinite) :
    ofDecimal false (x.shortestDecimal tie) = x.abs := by
  by_cases hz : x.isZero = true
  · have hm : x.magnitude = 0 := by simpa [isZero] using hz
    simp [shortestDecimal, hz, ofDecimal, abs, hm]
  · rw [Bool.not_eq_true] at hz
    have hgrid : ∀ g d, x.onGrid? tie g = some d → ofDecimal false d = x.abs := by
      intro g d h
      simp only [onGrid?] at h
      split at h <;> split at h
      all_goals grind
    simp only [shortestDecimal, hz, Bool.false_eq_true, ↓reduceIte]
    cases h : (List.range 17).findSome? fun (n : ℕ) => x.onGrid? tie (x.decimalMagnitude - n) with
    | none => exact ofDecimal_exactDecimal hx hz
    | some d =>
      obtain ⟨n, -, hn⟩ := List.exists_of_findSome?_eq_some h
      exact hgrid _ d hn

end

/-! ## Finite numbers -/

/-- A ratio well below the range of the format is rounded to a finite number. -/
lemma isFinite_ofRatio {negative : Bool} {n d : ℕ} (hd : 0 < d) (h : (n / d : ℚ) < 2 ^ (100 : ℤ)) :
    (ofRatio negative n d).isFinite = true := by
  have hinf : infinityMagnitude < 2 ^ 63 := by decide
  rcases Nat.eq_zero_or_pos n with rfl | hn
  · rw [ofRatio, if_pos rfl, isFinite, magnitude_ofMagnitude (by decide)]
    decide
  obtain ⟨t, ht⟩ := exists_isExponent hn hd
  have hm : significandAt n d t ≤ 2 ^ 53 := by
    have hlt := (scaled_lt_iff hd 53).2 ht.2.1
    have hq := Nat.div_lt_of_lt_mul hlt
    exact (Tie.roundDiv_le _ _ _).trans hq
  -- the significand has 53 bits, and the ratio less than 100
  have hbound : t ≤ 48 := by
    rcases ht.2.2 with rfl | hle
    · decide
    · have := (zpow_lt_zpow_iff_right₀ (one_lt_two (α := ℚ))).1 (hle.trans_lt h)
      omega
  have hmag : (t + 1074).toNat * 2 ^ 52 + significandAt n d t < infinityMagnitude := by
    have hlow := ht.1
    simp only [infinityMagnitude]
    omega
  rw [ofRatio_of_isExponent hn hd ht, min_eq_left hmag.le, isFinite,
    magnitude_ofMagnitude (hmag.trans hinf)]
  exact decide_eq_true hmag

/-- An integer of at most a hundred bits is rounded to a finite number. -/
lemma isFinite_ofInt {n : ℤ} (h : n.natAbs < 2 ^ 100) : (ofInt n).isFinite = true := by
  refine isFinite_ofRatio one_pos ?_
  rw [Nat.cast_one, div_one]
  exact_mod_cast h

end Binary64

end ProvenTables
