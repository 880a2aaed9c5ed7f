import ProvenTables.Json.Printer
import ProvenTables.Json.Reader
import ProvenTables.Proofs.Binary64.Notation

/-!
# Numbers in JSON

Main statement: the text of a finite number and of an integer of 64 bits reads back as that number,
whatever comes after it that is no part of a number (`readNumber?_render_float`,
`readNumber?_render_int`).
-/

namespace ProvenTables.Json

open Binary64

/-- Whether a text does not go on with a part of a number. -/
def NumberEnds (r : List Char) : Prop :=
  ∀ c ∈ r.head?, c.isDigit = false ∧ c ≠ '.' ∧ c ≠ 'e' ∧ c ≠ 'E'

/-- Where a number ends no digit follows. -/
lemma NumberEnds.noDigit {r : List Char} (h : NumberEnds r) : NoDigit r := fun c hc => (h c hc).1

/-- A number ends where the text does. -/
lemma NumberEnds.nil : NumberEnds [] := fun _ hc => by cases hc

/-- Where a number ends there is no exponent. -/
lemma readExponent?_of_ends {r : List Char} (h : NumberEnds r) :
    readExponent? r = some (none, r) := by
  cases r with
  | nil => rfl
  | cons c r => simp [readExponent?, (h c rfl).2.2]

/-- Reading an exponent that begins with a sign or a digit. -/
lemma readExponent?_digits {n : ℕ} {r : List Char} {sign : List Char} {negative : Bool}
    (hs : sign = ['-'] ∧ negative = true ∨ (sign = ['+'] ∨ sign = []) ∧ negative = false)
    (hr : NoDigit r) :
    readExponent? ('e' :: (sign ++ Text.digits n) ++ r) =
      some (some (if negative then -(n : ℤ) else n), r) := by
  have hspan : spanDigits (Text.digits n ++ r) = (Text.digits n, r) :=
    spanDigits_append (fun _ => Text.isDigit_of_mem_digits) hr
  have hval : Nat.ofDigitChars 10 (Text.digits n) 0 = n := Nat.ofDigitChars_ten_toDigits
  have hne : (Text.digits n).isEmpty = false := List.isEmpty_eq_false_iff.2 (Text.digits_ne_nil n)
  rcases hs with ⟨rfl, rfl⟩ | ⟨rfl | rfl, rfl⟩
  · simp [readExponent?, hspan, hval, hne]
  · simp [readExponent?, hspan, hval, hne]
  · -- without a sign the text goes on with a digit
    obtain ⟨d, ds, hds⟩ := List.exists_cons_of_ne_nil (Text.digits_ne_nil n)
    have hd : d.isDigit = true := Text.isDigit_of_mem_digits (hds ▸ List.mem_cons_self)
    have hminus : d ≠ '-' := by rintro rfl; exact absurd hd (by decide)
    have hplus : d ≠ '+' := by rintro rfl; exact absurd hd (by decide)
    rw [hds] at hspan hval hne
    simp only [List.cons_append] at hspan
    simp only [List.nil_append, List.cons_append, hds, readExponent?, true_or, ↓reduceIte]
    split
    · rename_i heq
      exact absurd (List.cons.inj heq).1 hminus
    · rename_i heq
      exact absurd (List.cons.inj heq).1 hplus
    · simp [hspan, hval]

/-- Reading a number from its parts. -/
lemma readNumeral?_append (negative : Bool) {whole part r s t : List Char} {e : Option ℤ}
    (hd : ∀ c ∈ whole, c.isDigit = true) (hw : isWhole whole = true) (hr : NoDigit r)
    (hf : readFraction? r = some (part, s)) (he : readExponent? s = some (e, t)) :
    readNumeral? ((if negative then ['-'] else []) ++ whole ++ r) =
      some (⟨negative, whole, part, e⟩, t) := by
  have hspan : spanDigits (whole ++ r) = (whole, r) := spanDigits_append hd hr
  cases negative with
  | true => simp [readNumeral?, hspan, hw, hf, he]
  | false =>
    cases whole with
    | nil => simp [isWhole] at hw
    | cons c whole =>
      have hc : c ≠ '-' := by
        rintro rfl
        exact absurd (hd _ List.mem_cons_self) (by decide)
      simp only [List.cons_append] at hspan
      simp only [Bool.false_eq_true, ↓reduceIte, List.nil_append, List.cons_append, readNumeral?]
      split
      · rename_i heq
        exact absurd (List.cons.inj heq).1 hc
      · simp [hspan, hw, hf, he]

/-- A fraction of at least one digit. -/
lemma readFraction?_digits {part r : List Char} (hne : part ≠ [])
    (hd : ∀ c ∈ part, c.isDigit = true) (hr : NoDigit r) :
    readFraction? ('.' :: part ++ r) = some (part, r) := by
  simp [readFraction?, spanDigits_append hd hr, hne]

/-- Without a point there is no fraction. -/
lemma readFraction?_none {r : List Char} (h : r.head? ≠ some '.') :
    readFraction? r = some ([], r) := by
  cases r with
  | nil => rfl
  | cons c r =>
    simp only [readFraction?]
    split
    · rename_i heq
      exact absurd (by rw [heq]; rfl) h
    · rfl

/-- The digits of a positive number make up the whole part of a number. -/
lemma isWhole_of_head? {ds : List Char} (hne : ds ≠ []) (h : ds.head? ≠ some '0') :
    isWhole ds = true := by
  match ds with
  | [_] => rfl
  | c :: _ :: _ => simpa [isWhole] using h

/-- The digits before and behind the point of a number in positional notation, with the value of the digits
that are written. -/
structure IsPositional (ds : List Char) (p : ℤ) (whole part : List Char) : Prop where
  text : positional .json ds p = whole ++ '.' :: part
  isWhole : isWhole whole = true
  part_ne_nil : part ≠ []
  whole_digits : ∀ c ∈ whole, c.isDigit = true
  part_digits : ∀ c ∈ part, c.isDigit = true
  value : Decimal.value ⟨Nat.ofDigitChars 10 (whole ++ part) 0, -part.length⟩ =
    Decimal.value ⟨Nat.ofDigitChars 10 ds 0, p - ds.length⟩

section

variable {ds : List Char} {p : ℤ}

/-- Zeros behind digits are digits. -/
lemma isDigit_of_mem_append_zeros (hd : ∀ c ∈ ds, c.isDigit = true) (k : ℕ) :
    ∀ c ∈ ds ++ List.replicate k '0', c.isDigit = true := by
  intro c hc
  rcases List.mem_append.1 hc with hc | hc
  · exact hd c hc
  · rw [(List.mem_replicate.1 hc).2]
    decide

/-- All digits are behind the point. -/
lemma isPositional_behind (hne : ds ≠ []) (hd : ∀ c ∈ ds, c.isDigit = true) (hp : p ≤ 0) :
    IsPositional ds p ['0'] (List.replicate (-p).toNat '0' ++ ds) where
  text := by simp [positional, hp]
  isWhole := rfl
  part_ne_nil := by simp [hne]
  whole_digits := List.forall_mem_singleton.2 rfl
  part_digits := by
    intro c hc
    refine isDigit_of_mem_append_zeros hd (-p).toNat c ?_
    exact List.mem_append.2 (List.mem_append.1 hc).symm
  value := by
    have hzeros : Nat.ofDigitChars 10 (['0'] ++ (List.replicate (-p).toNat '0' ++ ds)) 0 =
        Nat.ofDigitChars 10 ds 0 := by
      rw [← List.append_assoc]
      exact Text.ofDigitChars_zeros_append ds ((-p).toNat + 1)
    rw [hzeros]
    simp only [List.length_append, List.length_replicate]
    congr 2
    omega

/-- All digits are before the point. -/
lemma isPositional_before (hne : ds ≠ []) (hd : ∀ c ∈ ds, c.isDigit = true)
    (hw : ds.head? ≠ some '0' ∨ ds = ['0'] ∧ p = 1) (hp : 0 < p) (hlen : ds.length ≤ p.toNat) :
    IsPositional ds p (ds ++ List.replicate (p.toNat - ds.length) '0') ['0'] where
  text := by
    simp [positional, show ¬p ≤ 0 by omega, List.drop_eq_nil_iff.2 hlen, List.take_of_length_le hlen,
      FloatStyle.json]
  isWhole := by
    rcases hw with hw | ⟨rfl, rfl⟩
    · refine isWhole_of_head? (by simp [hne]) ?_
      rwa [List.head?_append_of_ne_nil _ hne]
    · rfl
  part_ne_nil := by simp
  whole_digits := isDigit_of_mem_append_zeros hd _
  part_digits := List.forall_mem_singleton.2 rfl
  value := by
    rw [Text.ofDigitChars_append, Text.ofDigitChars_append_zeros]
    simp only [Decimal.value, List.length_singleton, Nat.ofDigitChars_cons, Nat.ofDigitChars_nil]
    rw [show p - ds.length = ((p.toNat - ds.length : ℕ) : ℤ) by omega, zpow_natCast]
    push_cast
    norm_num
    ring

/-- The point is between the digits. -/
lemma isPositional_between (hd : ∀ c ∈ ds, c.isDigit = true) (hhead : ds.head? ≠ some '0') (hp : 0 < p)
    (hlen : p.toNat < ds.length) : IsPositional ds p (ds.take p.toNat) (ds.drop p.toNat) where
  text := by
    simp [positional, show ¬p ≤ 0 by omega, show ¬ds.length ≤ p.toNat by omega,
      Nat.sub_eq_zero_of_le hlen.le]
  isWhole := by
    refine isWhole_of_head? ?_ ?_
    · rw [Ne, List.take_eq_nil_iff]
      rintro (hzero | rfl)
      · omega
      · simp at hlen
    · rwa [List.head?_take, if_neg (by omega)]
  part_ne_nil := by
    rw [Ne, List.drop_eq_nil_iff]
    omega
  whole_digits := fun c hc => hd c (List.mem_of_mem_take hc)
  part_digits := fun c hc => hd c (List.mem_of_mem_drop hc)
  value := by
    rw [List.take_append_drop, List.length_drop]
    congr 2
    omega

/-- Positional notation has the value of its digits. -/
lemma exists_isPositional (hne : ds ≠ []) (hd : ∀ c ∈ ds, c.isDigit = true)
    (hw : ds.head? ≠ some '0' ∨ ds = ['0'] ∧ p = 1) : ∃ whole part, IsPositional ds p whole part := by
  rcases le_or_gt p 0 with hp | hp
  · exact ⟨_, _, isPositional_behind hne hd hp⟩
  rcases le_or_gt ds.length p.toNat with hlen | hlen
  · exact ⟨_, _, isPositional_before hne hd hw hp hlen⟩
  · -- a zero has a single digit, which is before the point
    have hhead : ds.head? ≠ some '0' := by
      rcases hw with hw | ⟨rfl, rfl⟩
      · exact hw
      · simp at hlen
    exact ⟨_, _, isPositional_between hd hhead hp hlen⟩

end

/-- A finite number is what its digits stand for, with its sign. -/
lemma number?_of_value {x : Binary64} (hx : x.isFinite) {w p : List Char} {e : Option ℤ}
    {d : Decimal} (hd : ofDecimal false d = x.abs)
    (hv : Decimal.value ⟨Nat.ofDigitChars 10 (w ++ p) 0, e.getD 0 - p.length⟩ = d.value)
    (hne : p ≠ [] ∨ e ≠ none) :
    number? x.isNegative w p e = some (.float x) := by
  have hint : ¬(p.isEmpty = true ∧ e.isNone = true) := by
    rintro ⟨h1, h2⟩
    rcases hne with h | h
    · exact h (List.isEmpty_iff.1 h1)
    · exact h (Option.isNone_iff_eq_none.1 h2)
  have hread : ofDecimal x.isNegative ⟨Nat.ofDigitChars 10 (w ++ p) 0,
      e.getD 0 - p.length⟩ = x := by
    rw [ofDecimal_congr hv, ofDecimal_sign hd, ofMagnitude_magnitude]
  simp only [number?, hread, hx, ↓reduceIte]
  rw [if_neg fun h => hint ⟨h.1, h.2.1⟩]

/-- Reading exponent notation. -/
lemma readNumeral?_scientific {negative : Bool} {d : Char} {ds r : List Char} {e : ℤ}
    (hd : ∀ c ∈ d :: ds, c.isDigit = true) (hr : NoDigit r) :
    readNumeral? ((if negative then ['-'] else []) ++ scientific .json (d :: ds) e ++ r) =
      some (⟨negative, [d], ds, some e⟩, r) := by
  obtain ⟨sign, hsign⟩ : ∃ sign, sign =
    if e < 0 then ['-'] else if FloatStyle.json.exponentPlus then ['+'] else [] := ⟨_, rfl⟩
  obtain ⟨frac, hfrac⟩ : ∃ frac, frac = if ds = [] then [] else '.' :: ds := ⟨_, rfl⟩
  have htext : scientific .json (d :: ds) e ++ r =
      [d] ++ (frac ++ ('e' :: (sign ++ Text.digits e.natAbs) ++ r)) := by
    rw [hfrac, hsign]
    cases ds <;> simp [scientific]
  have hexp : readExponent? ('e' :: (sign ++ Text.digits e.natAbs) ++ r) = some (some e, r) := by
    -- the sign read back is a minus exactly if the exponent is negative
    have hs : sign = ['-'] ∧ decide (e < 0) = true ∨
        (sign = ['+'] ∨ sign = []) ∧ decide (e < 0) = false := by
      rw [hsign]
      split
      · exact .inl ⟨rfl, decide_eq_true ‹_›⟩
      · exact .inr ⟨.inl rfl, decide_eq_false ‹_›⟩
    rw [readExponent?_digits hs hr]
    congr 3
    simp only [decide_eq_true_eq]
    split <;> omega
  have hnodigit : ∀ t, NoDigit ('e' :: t) := fun t c hc => by cases hc; decide
  have hfr : readFraction? (frac ++ ('e' :: (sign ++ Text.digits e.natAbs) ++ r)) =
      some (ds, 'e' :: (sign ++ Text.digits e.natAbs) ++ r) := by
    rw [hfrac]
    split
    · rename_i h
      rw [h]
      exact readFraction?_none (by simp)
    · rename_i h
      exact readFraction?_digits h (fun c hc => hd c (List.mem_cons_of_mem _ hc)) (hnodigit _)
  rw [List.append_assoc, htext, ← List.append_assoc]
  refine readNumeral?_append negative (fun c hc => hd c (by simp_all)) rfl ?_ hfr hexp
  rw [hfrac]
  split
  · exact hnodigit _
  · exact fun c hc => by cases hc; decide

/-- The text of a finite number reads back. -/
lemma readNumber?_render_float {x : Binary64} (hx : x.isFinite) {r : List Char}
    (hr : NumberEnds r) : readNumber? ((x.render .json).toList ++ r) = some (.float x, r) := by
  obtain ⟨ds, p, hds⟩ : ∃ ds p, x.shortestDigits .toEven = (ds, p) := ⟨_, _, rfl⟩
  obtain ⟨hne, hd, hhead, hval⟩ := shortestDigits_spec hx hds
  rw [toList_render .json hx hds]
  by_cases hplain : FloatStyle.json.plainFrom ≤ p - 1 ∧ p - 1 < FloatStyle.json.plainBelow
  · have hw : ds.head? ≠ some '0' ∨ ds = ['0'] ∧ p = 1 := by
      split at hhead
      · exact .inr hhead
      · exact .inl hhead
    obtain ⟨whole, part, h⟩ := exists_isPositional hne hd hw
    have hread := readNumeral?_append x.isNegative (r := '.' :: part ++ r) h.whole_digits h.isWhole
      (fun c hc => by cases hc; decide) (readFraction?_digits h.part_ne_nil h.part_digits hr.noDigit)
      (readExponent?_of_ends hr)
    have hnum := number?_of_value hx (e := none) hval (by simpa using h.value) (.inl h.part_ne_nil)
    rw [if_pos hplain, h.text, List.append_assoc, List.append_assoc, ← List.append_assoc]
    rw [readNumber?, hread]
    simp [hnum]
  · obtain ⟨d, rest, rfl⟩ := List.exists_cons_of_ne_nil hne
    have hnum := number?_of_value (w := [d]) (p := rest) (e := some (p - 1)) hx hval
      (by simp only [List.length_cons, List.singleton_append, Option.getD_some]
          congr 2
          omega) (.inr (by simp))
    rw [if_neg hplain, readNumber?, readNumeral?_scientific hd hr.noDigit]
    simp [hnum]

/-- The text of an integer of 64 bits reads back. -/
lemma readNumber?_render_int {n : ℤ} (hn : isWord n) {r : List Char} (hr : NumberEnds r) :
    readNumber? ((toString n).toList ++ r) = some (.int n, r) := by
  have hwhole : isWhole (Text.digits n.natAbs) = true := by
    rcases eq_or_ne n.natAbs 0 with h | h
    · rw [h]
      rfl
    · exact isWhole_of_head? (Text.digits_ne_nil _) (Text.head?_digits h)
  have hread := readNumeral?_append (decide (n < 0)) (r := r)
    (fun c hc => Text.isDigit_of_mem_digits hc) hwhole hr.noDigit
    (readFraction?_none fun h => (hr _ h).2.1 rfl) (readExponent?_of_ends hr)
  have hval : Nat.ofDigitChars 10 (Text.digits n.natAbs) 0 = n.natAbs :=
    Nat.ofDigitChars_ten_toDigits
  have hsign : (if decide (n < 0) = true then -(n.natAbs : ℤ) else n.natAbs) = n := by
    simp only [decide_eq_true_eq]
    split <;> omega
  have hzero : ¬(decide (n < 0) = true ∧ n.natAbs = 0) := by
    simp only [decide_eq_true_eq]
    omega
  have hnum : number? (decide (n < 0)) (Text.digits n.natAbs) [] none = some (.int n) := by
    simp only [number?, List.append_nil, hval, hsign, hn]
    rw [if_pos ⟨rfl, rfl, trivial, hzero⟩]
  simp only [decide_eq_true_eq] at hread
  rw [Text.toList_toString_int, readNumber?, hread]
  simp [hnum]

end ProvenTables.Json
