import ProvenTables.Binary64.Notation
import ProvenTables.Proofs.Binary64.Rounding
import ProvenTables.Proofs.Text.Digits

/-!
# Digits of numbers

The digits of a finite number and the place of its point read back as the number
(`shortestDigits_spec`), and are what its text shows (`toList_render`).
-/

namespace ProvenTables.Binary64

/-- Whether a text does not go on with a digit. -/
def NoDigit (r : List Char) : Prop := ∀ c ∈ r.head?, c.isDigit = false

/-- The digits at the front are taken as far as no digit follows. -/
lemma spanDigits_append {ds r : List Char} (hd : ∀ c ∈ ds, c.isDigit = true) (hr : NoDigit r) :
    spanDigits (ds ++ r) = (ds, r) := by
  have hnil : r.takeWhile Char.isDigit = [] ∧ r.dropWhile Char.isDigit = r := by
    cases r with
    | nil => exact ⟨rfl, rfl⟩
    | cons c r => simp [hr c rfl]
  simp [spanDigits, List.takeWhile_append_of_pos hd, List.dropWhile_append_of_pos hd, hnil]

/-- The shortest decimal of a number that is not zero is not zero. -/
lemma coefficient_shortestDecimal_ne_zero (tie : Tie) {x : Binary64} (hx : x.isFinite)
    (hz : x.isZero ≠ true) : (x.shortestDecimal tie).coefficient ≠ 0 := by
  intro hc
  have hread := ofDecimal_shortestDecimal tie hx
  simp only [ofDecimal, hc, ↓reduceIte, abs] at hread
  have hmagnitude := congrArg magnitude hread
  rw [magnitude_ofMagnitude (by positivity), magnitude_ofMagnitude x.magnitude_lt] at hmagnitude
  simp [isZero, ← hmagnitude] at hz

/-- Leaving out zeros at the end moves them into the exponent. -/
lemma value_of_digits_eq {n k : ℕ} {kept : List Char}
    (h : Text.digits n = kept ++ List.replicate k '0') (e : ℤ) :
    Decimal.value ⟨Nat.ofDigitChars 10 kept 0, e + (Text.digits n).length - kept.length⟩ =
      Decimal.value ⟨n, e⟩ := by
  have hcoef : n = 10 ^ k * Nat.ofDigitChars 10 kept 0 := by
    rw [← Text.ofDigitChars_append_zeros, ← h, Text.digits, Nat.ofDigitChars_ten_toDigits]
  have hlen : (Text.digits n).length = kept.length + k := by
    rw [h, List.length_append, List.length_replicate]
  simp only [Decimal.value, hlen, Nat.cast_add]
  rw [show e + (kept.length + k : ℤ) - kept.length = e + k by ring, zpow_add₀ (by norm_num), zpow_natCast]
  rw [hcoef]
  push_cast
  ring

/-- What the digits of a finite number and the place of its point stand for. -/
lemma shortestDigits_spec {tie : Tie} {x : Binary64} (hx : x.isFinite) {ds : List Char} {p : ℤ}
    (h : x.shortestDigits tie = (ds, p)) :
    ds ≠ [] ∧ (∀ c ∈ ds, c.isDigit = true) ∧
      (if x.isZero then ds = ['0'] ∧ p = 1 else ds.head? ≠ some '0') ∧
      ofDecimal false ⟨Nat.ofDigitChars 10 ds 0, p - ds.length⟩ = x.abs := by
  by_cases hz : x.isZero = true
  · have hm : x.magnitude = 0 := by simpa [isZero] using hz
    have hd : x.shortestDecimal tie = ⟨0, 0⟩ := by simp [shortestDecimal, hz]
    simp only [shortestDigits, hd, Text.digits, Nat.toDigits_zero] at h
    obtain ⟨rfl, rfl⟩ := Prod.mk.inj h
    simp only [hz, ↓reduceIte]
    refine ⟨by decide, List.forall_mem_singleton.2 rfl, ⟨by decide, by decide⟩, ?_⟩
    simp [ofDecimal, Nat.ofDigitChars_cons, abs, hm]
  · have hread := ofDecimal_shortestDecimal tie hx
    have hc := coefficient_shortestDecimal_ne_zero tie hx hz
    obtain ⟨d, hd⟩ : ∃ d, d = x.shortestDecimal tie := ⟨_, rfl⟩
    rw [← hd] at hread hc
    -- the zeros at the end of the coefficient are left to the exponent
    obtain ⟨k, hk⟩ := Text.exists_eq_append_replicate (Text.digits d.coefficient) '0'
    obtain ⟨kept, hkept⟩ : ∃ kept,
        kept = ((Text.digits d.coefficient).reverse.dropWhile (· == '0')).reverse := ⟨_, rfl⟩
    rw [← hkept] at hk
    -- a coefficient that is not zero keeps a digit
    have hne : kept ≠ [] := by
      rintro rfl
      have h0 := congrArg (Nat.ofDigitChars 10 · 0) hk
      simp only [List.nil_append, Text.digits, Nat.ofDigitChars_ten_toDigits,
        Nat.ofDigitChars_replicate_zero, Nat.mul_zero] at h0
      exact hc h0
    simp only [shortestDigits, ← hd, ← hkept, List.isEmpty_eq_false_iff.2 hne, Bool.false_eq_true,
      ↓reduceIte, Prod.mk.injEq] at h
    obtain ⟨rfl, rfl⟩ := h
    simp only [hz, Bool.false_eq_true, ↓reduceIte]
    refine ⟨hne, fun c hc => ?_, fun hhead => ?_, ?_⟩
    · exact Text.isDigit_of_mem_digits (hk ▸ List.mem_append_left _ hc)
    · refine Text.head?_digits hc ?_
      rw [hk, List.head?_append_of_ne_nil _ hne, hhead]
    · rw [← hread]
      exact ofDecimal_congr (value_of_digits_eq hk d.exponent)

/-- The layout of the text of a finite number. -/
lemma toList_render (style : FloatStyle) {x : Binary64} (hx : x.isFinite) {ds : List Char} {p : ℤ}
    (h : x.shortestDigits style.tie = (ds, p)) :
    (x.render style).toList = (if x.isNegative then ['-'] else []) ++
      (if style.plainFrom ≤ p - 1 ∧ p - 1 < style.plainBelow then positional style ds p
        else scientific style ds (p - 1)) := by
  have hnan : x.isNaN = false := by
    have h : x.magnitude < infinityMagnitude := of_decide_eq_true hx
    simp only [isNaN, decide_eq_false_iff_not]
    omega
  have hmag : (if x.isZero then 0 else p - 1) = p - 1 := by
    have hhead := (shortestDigits_spec hx h).2.2.1
    split
    · rename_i hz
      rw [if_pos hz] at hhead
      omega
    · rfl
  simp only [render, hnan, hx, Bool.false_eq_true, Bool.not_true, ↓reduceIte, String.toList_ofList, h, hmag,
    sub_add_cancel]

end ProvenTables.Binary64
