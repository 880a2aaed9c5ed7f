import ProvenTables.Proofs.Scalar
import ProvenTables.Proofs.Sql.Lists
import ProvenTables.Proofs.Text.Integers
import ProvenTables.Proofs.Timestamp.RoundTrip

/-!
# Texts of scalars

A timestamp is determined by its text (`Timestamp.render_inj`), also where the text is not read back because
the year has a sign. So are values of one type that hold finite numbers only (`Scalar.render_inj`); values of
different types can have one text.
-/

namespace ProvenTables

/-! ## Timestamps -/

namespace Timestamp

open Text

/-- Numbers with as many digits as each other are found again in front of what follows them. -/
lemma paddedDigits_append_inj {w m n : ℕ} {r s : List Char} (hw : 0 < w) (hm : m < 10 ^ w) (hn : n < 10 ^ w)
    (h : paddedDigits w m ++ r = paddedDigits w n ++ s) : m = n ∧ r = s := by
  have hlength := (length_paddedDigits hw hm).trans (length_paddedDigits hw hn).symm
  obtain ⟨hdigits, hrest⟩ := List.append_inj h hlength
  have hnumber := congrArg (Nat.ofDigitChars 10 · 0) hdigits
  simp only [ofDigitChars_paddedDigits] at hnumber
  exact ⟨hnumber, hrest⟩

/-- Fractions of a second with the same text are the same. -/
lemma renderFraction_append_inj {m n : ℕ} (hm : m < 10 ^ 9) (hn : n < 10 ^ 9)
    (h : renderFraction m ++ ['Z'] = renderFraction n ++ ['Z']) : m = n := by
  have hread := fraction?_render hm
  rw [h, fraction?_render hn] at hread
  exact (Prod.mk.inj (Option.some.inj hread)).1.symm

/-- Moments of one date with the same clock time are the same. -/
lemma eq_of_charsOfTime_eq {t u : Timestamp} (hdate : t.date = u.date) (h : t.charsOfTime = u.charsOfTime) :
    t = u := by
  have ht := t.second_lt
  have hu := u.second_lt
  have htn := t.nanos_lt
  have hun := u.nanos_lt
  obtain ⟨hhour, h⟩ := paddedDigits_append_inj (by decide) (by omega) (by omega) h
  obtain ⟨hminute, h⟩ := paddedDigits_append_inj (by decide) (by omega) (by omega) (List.cons.inj h).2
  obtain ⟨hsecond, h⟩ := paddedDigits_append_inj (by decide) (by omega) (by omega) (List.cons.inj h).2
  have hnanos := renderFraction_append_inj (Nat.mod_lt _ (by decide)) (Nat.mod_lt _ (by decide)) h
  have hclock := ofClock?_parts t
  rw [hdate, hhour, hminute, hsecond, hnanos, ofClock?_parts u] at hclock
  exact (Option.some.inj hclock).symm

/-- A timestamp is determined by its text. -/
theorem render_inj {t u : Timestamp} : t.render = u.render ↔ t = u := by
  refine ⟨fun h => ?_, fun h => h ▸ rfl⟩
  have hread := read?_render t
  rw [h, read?_render u] at hread
  by_cases ht : t.IsDated
  · rw [if_pos ht] at hread
    by_cases hu : u.IsDated
    · rw [if_pos hu] at hread
      exact (Option.some.inj hread).symm
    · rw [if_neg hu] at hread
      cases hread
  · have hu : ¬u.IsDated := by
      intro hu
      rw [if_neg ht, if_pos hu] at hread
      cases hread
    -- a signed year is read back by itself, with the date that follows it
    have hdate := looseDate?_signed ht
    rw [String.ofList_injective h, looseDate?_signed hu] at hdate
    obtain ⟨hdate, htime⟩ := Prod.mk.inj (Option.some.inj hdate)
    exact (eq_of_charsOfTime_eq hdate (List.cons.inj htime).2).symm

end Timestamp

/-! ## Values of one type -/

/-- A finite number is determined by its text. -/
lemma Binary64.render_inj {x y : Binary64} (hx : x.isFinite = true) (hy : y.isFinite = true) :
    x.render .text = y.render .text ↔ x = y := by
  refine ⟨fun h => ?_, fun h => h ▸ rfl⟩
  have hread := readFinite?_render hx
  rw [h, readFinite?_render hy] at hread
  exact (Option.some.inj hread).symm

/-- Lists of finite numbers with the same text are the same. -/
lemma renderFloats_inj {xs ys : List Binary64} (hxs : ∀ x ∈ xs, x.isFinite = true)
    (hys : ∀ y ∈ ys, y.isFinite = true) : renderFloats xs = renderFloats ys ↔ xs = ys := by
  refine ⟨fun h => ?_, fun h => h ▸ rfl⟩
  have hread := Sql.readVector_renderFloats hxs (a := []) (z := []) (by simp) (by simp)
  rw [h, Sql.readVector_renderFloats hys (by simp) (by simp)] at hread
  exact (Except.ok.inj hread).symm

namespace Scalar

/-- Values of one type that hold finite numbers only are determined by their text. -/
theorem render_inj {x y : Scalar} (htype : x.type = y.type) (hx : x.IsFinite) (hy : y.IsFinite) :
    x.render = y.render ↔ x = y := by
  refine ⟨fun h => ?_, fun h => h ▸ rfl⟩
  cases x with
  | int m =>
    cases y <;> cases htype
    exact congrArg int (Int64.toInt_inj.1 (Text.toString_int_inj.1 (congrArg String.toList h)))
  | float a =>
    cases y <;> cases htype
    exact congrArg float ((Binary64.render_inj hx hy).1 h)
  | bool b =>
    cases y <;> cases htype
    rename_i c
    cases b <;> cases c <;> simp [render] at h ⊢
  | string s =>
    cases y <;> cases htype
    exact congrArg string h
  | datetime t =>
    cases y <;> cases htype
    exact congrArg datetime (Timestamp.render_inj.1 h)
  | floats xs =>
    cases y <;> cases htype
    exact congrArg floats ((renderFloats_inj hx hy).1 h)

end Scalar

end ProvenTables
