import ProvenTables.Proofs.Membership.Divisibility

/-!
# Witnesses of zero

What a witness says of the values that it is made of: it is zero exactly if the scale divides what the
rounded quotient of the values leaves over. A scale that is no less than the value of the records accepts
nothing but divisibility, and a smaller one may accept more (`ofRoots_exact`).
-/

namespace ProvenTables.Membership

variable {params : Params} {p q : ℤ}

/-! ## Rounded division -/

/-- The quotient that is rounded down is the floor of the rational one. -/
lemma fdiv_eq_floor (a b : ℤ) : a.fdiv b = ⌊(a : ℚ) / b⌋ := by
  have hnonneg : ∀ (a : ℤ) (n : ℕ), a.fdiv n = ⌊(a : ℚ) / (n : ℤ)⌋ := fun a n => by
    rw [Int.fdiv_eq_ediv_of_nonneg a (Int.natCast_nonneg n), Int.cast_natCast,
      Rat.floor_intCast_div_natCast]
  obtain ⟨n, rfl | rfl⟩ := b.eq_nat_or_neg
  · exact hnonneg a n
  · have hneg : (a : ℚ) / (-n : ℤ) = (-a : ℤ) / (n : ℤ) := by
      rw [Int.cast_neg, Int.cast_neg, div_neg, neg_div]
    rw [hneg, ← hnonneg, ← Int.neg_fdiv_neg, neg_neg]

/-- The quotient is rounded down whatever the signs. -/
lemma floorDiv_eq_floor (a : ℤ) {b : ℤ} (hb : b ≠ 0) : floorDiv a b = ⌊(a : ℚ) / b⌋ := by
  rw [floorDiv_eq_fdiv hb, fdiv_eq_floor]

/-- The residue is the one that is not negative, whatever the sign of the dividend. -/
lemma modFloor_spec (a : ℤ) {m : ℤ} (hm : 0 < m) :
    modFloor a m ∈ Set.Ico 0 m ∧ m ∣ a - modFloor a m := by
  rw [modFloor_eq_emod hm]
  exact ⟨⟨Int.emod_nonneg a hm.ne', Int.emod_lt_of_pos a hm⟩, Int.dvd_self_sub_emod⟩

/-- What is left over by the rounded quotient is less than the divisor. -/
lemma abs_sub_mul_floor_lt (p : ℤ) (hq : q ≠ 0) : |p - q * ⌊(p : ℚ) / q⌋| < |q| := by
  have hrest : ((p - q * ⌊(p : ℚ) / q⌋ : ℤ) : ℚ) = q * Int.fract ((p : ℚ) / q) := by
    rw [Int.fract, mul_sub, mul_div_cancel₀ _ (Int.cast_ne_zero.2 hq)]
    push_cast
    rfl
  have hlt : |(q : ℚ) * Int.fract ((p : ℚ) / q)| < |(q : ℚ)| := by
    rw [abs_mul, Int.abs_fract]
    exact mul_lt_of_lt_one_right (abs_pos.2 (Int.cast_ne_zero.2 hq)) (Int.fract_lt_one _)
  rw [← hrest] at hlt
  exact_mod_cast hlt

/-- Nothing is left over exactly if the divisor divides. -/
lemma sub_mul_floor_eq_zero_iff (p : ℤ) (hq : q ≠ 0) : p - q * ⌊(p : ℚ) / q⌋ = 0 ↔ q ∣ p := by
  constructor
  · exact fun h => ⟨_, sub_eq_zero.1 h⟩
  · rintro ⟨k, rfl⟩
    rw [Int.cast_mul, mul_div_cancel_left₀ _ (Int.cast_ne_zero.2 hq), Int.floor_intCast, sub_self]

/-! ## Witnesses -/

/-- The witness of two values at a point. -/
def Witness.ofValues (params : Params) (point : ℕ) (p q : ℤ) : Witness :=
  ⟨point, p % params.scale, q * ⌊(p : ℚ) / q⌋ % params.scale⟩

/-- A witness is zero if and only if the scale divides what the rounded quotient leaves. -/
lemma isZero_ofValues_iff {point : ℕ} :
    (Witness.ofValues params point p q).isZero = true ↔ (params.scale : ℤ) ∣ p - q * ⌊(p : ℚ) / q⌋ := by
  rw [Witness.ofValues, Witness.isZero, beq_iff_eq, Int.emod_eq_emod_iff_emod_sub_eq_zero,
    Int.dvd_iff_emod_eq_zero]

/-- A scale that is no less than the value of the records accepts nothing but divisibility. -/
lemma dvd_of_isZero_ofValues {point : ℕ} (hq : q ≠ 0) (hscale : |q| ≤ params.scale)
    (h : (Witness.ofValues params point p q).isZero = true) : q ∣ p := by
  rw [← sub_mul_floor_eq_zero_iff p hq]
  exact Int.eq_zero_of_abs_lt_dvd (isZero_ofValues_iff.1 h)
    ((abs_sub_mul_floor_lt p hq).trans_le hscale)

/-- The witness of roots is the one of the values of their polynomials. -/
lemma ofRoots_eq (hscale : 1 ≤ params.scale) (table records : List ℕ) (point : ℕ) :
    Witness.ofRoots params table records point =
      if evaluate records point = 0 then .error .challengeIsRoot
      else .ok (.ofValues params point (evaluate table point) (evaluate records point)) := by
  have hscale : (0 : ℤ) < params.scale := by omega
  rw [Witness.ofRoots]
  refine ite_congr rfl (fun _ => rfl) fun hq => ?_
  rw [modFloor_eq_emod hscale, modFloor_eq_emod hscale, floorDiv_eq_floor _ hq]
  rfl

/-- What a witness of zero means exactly: with `p` and `q` the values of the polynomials at the point. -/
theorem ofRoots_exact (hscale : 1 ≤ params.scale) (table records : List ℕ) (point : ℕ) :
    let p : ℤ := (table.map fun e : ℕ => (point : ℤ) - e).prod
    let q : ℤ := (records.map fun e : ℕ => (point : ℤ) - e).prod
    ((∃ e, Witness.ofRoots params table records point = .error e) ↔ q = 0) ∧
    (q ≠ 0 → ∃ w, Witness.ofRoots params table records point = .ok w ∧
      w.lhs = p % params.scale ∧ w.rhs = q * ⌊(p : ℚ) / q⌋ % params.scale ∧
      w.lhs ∈ Set.Ico 0 (params.scale : ℤ) ∧ w.rhs ∈ Set.Ico 0 (params.scale : ℤ) ∧
      (w.isZero = true ↔ (params.scale : ℤ) ∣ p - q * ⌊(p : ℚ) / q⌋) ∧
      (q ∣ p → w.isZero = true) ∧ (|q| ≤ params.scale → w.isZero = true → q ∣ p)) ∧
    (∀ a b : ℤ, b ≠ 0 → floorDiv a b = ⌊(a : ℚ) / b⌋) ∧
    ∀ a m : ℤ, 0 < m → modFloor a m ∈ Set.Ico 0 m ∧ m ∣ a - modFloor a m := by
  intro p q
  have hresidue : ∀ a : ℤ, a % params.scale ∈ Set.Ico 0 (params.scale : ℤ) := fun a =>
    ⟨Int.emod_nonneg a (by omega), Int.emod_lt_of_pos a (by omega)⟩
  rw [ofRoots_eq hscale, evaluate_eq_prod, evaluate_eq_prod]
  refine ⟨?_, fun hq => ?_, fun a b hb => floorDiv_eq_floor a hb, fun a m hm => modFloor_spec a hm⟩
  · by_cases hq : q = 0
    · exact iff_of_true ⟨_, if_pos hq⟩ hq
    · refine iff_of_false ?_ hq
      rintro ⟨e, he⟩
      rw [if_neg hq] at he
      cases he
  · refine ⟨.ofValues params point p q, if_neg hq, rfl, rfl, hresidue _, hresidue _,
      isZero_ofValues_iff, fun hdvd => ?_, dvd_of_isZero_ofValues hq⟩
    rw [isZero_ofValues_iff, (sub_mul_floor_eq_zero_iff p hq).2 hdvd]
    exact dvd_zero _

/-- A scale of three is less than the value ten of the records, which then passes for a divisor of the
value minus seven of the table. -/
theorem ofRoots_exact_forged :
    1 ≤ (Params.mk bn254Order 3).scale ∧ ¬evaluate [2] 12 ∣ evaluate [19] 12 ∧
      ∃ w, Witness.ofRoots ⟨bn254Order, 3⟩ [19] [2] 12 = .ok w ∧ w.isZero = true := by
  have hscale : 1 ≤ (Params.mk bn254Order 3).scale := by decide
  obtain ⟨-, hok, -⟩ := ofRoots_exact hscale [19] [2] 12
  obtain ⟨w, hw, -, -, -, -, hzero, -⟩ := hok (by decide)
  refine ⟨hscale, by decide, w, hw, hzero.2 ?_⟩
  rw [← fdiv_eq_floor]
  decide

end ProvenTables.Membership
