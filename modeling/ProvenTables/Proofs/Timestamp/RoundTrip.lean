import ProvenTables.Proofs.Binary64.Notation
import ProvenTables.Proofs.Text.Blank
import ProvenTables.Timestamp.Notation

/-!
# Reading back timestamps

The text of a timestamp reads back as the timestamp exactly if its year has no sign. A text with a
signed year is no date and time with an offset, and the `Z` at its end is no part of a date and time
without one.
-/

namespace ProvenTables.Timestamp

open Text Binary64

/-- Whether the year is written in four digits without a sign. -/
def IsDated (t : Timestamp) : Prop := 0 ≤ t.date.year ∧ t.date.year ≤ 9999

/-- Whether the year of a timestamp has four digits can be decided. -/
instance (t : Timestamp) : Decidable t.IsDated := by unfold IsDated; infer_instance

/-! ## Fields -/

/-- A number that is small enough takes as many digits as it is padded to. -/
lemma length_paddedDigits {w n : ℕ} (hw : 0 < w) (h : n < 10 ^ w) :
    (paddedDigits w n).length = w := by
  have hlen : (digits n).length ≤ w := (Nat.length_toDigits_le_iff (by decide) hw).2 h
  simp only [paddedDigits, List.length_append, List.length_replicate]
  omega

/-- A padded number is made of digits. -/
lemma isDigit_of_mem_paddedDigits {w n : ℕ} {c : Char} (h : c ∈ paddedDigits w n) :
    c.isDigit = true := by
  rcases List.mem_append.1 h with h | h
  · rw [List.eq_of_mem_replicate h]
    rfl
  · exact isDigit_of_mem_digits h

/-- A padded number has at least one digit. -/
lemma paddedDigits_ne_nil (w n : ℕ) : paddedDigits w n ≠ [] :=
  List.append_ne_nil_of_right_ne_nil _ (digits_ne_nil n)

/-- The digits of a padded number write the number. -/
lemma ofDigitChars_paddedDigits (w n : ℕ) : Nat.ofDigitChars 10 (paddedDigits w n) 0 = n := by
  rw [paddedDigits, ofDigitChars_zeros_append, digits, Nat.ofDigitChars_ten_toDigits]

/-- As many digits as there are, or as are allowed, are read as a field. -/
lemma digitField?_append {least most : ℕ} {ds r : List Char}
    (hd : ∀ c ∈ ds, c.isDigit = true) (hleast : least ≤ ds.length)
    (hmost : ds.length ≤ most) (hr : ds.length = most ∨ NoDigit r) :
    digitField? least most (ds ++ r) = some (Nat.ofDigitChars 10 ds 0, r) := by
  have hrest : NoDigit (r.take (most - ds.length)) := by
    rcases hr with rfl | hr
    · simp [NoDigit]
    · intro c hc
      cases r with
      | nil => simp at hc
      | cons d r =>
        cases hk : most - ds.length with
        | zero => simp [hk] at hc
        | succ k => exact hr c (by simpa [hk] using hc)
  have hspan := congrArg Prod.fst (spanDigits_append hd hrest)
  simp only [spanDigits] at hspan
  have htake : (ds ++ r).take most = ds ++ r.take (most - ds.length) := by
    rw [List.take_append, List.take_of_length_le hmost]
  simp only [digitField?, htake, hspan, if_neg (Nat.not_lt.2 hleast), List.drop_left]

/-- A padded number is read as a field of its width. -/
lemma digitField?_padded {least w n : ℕ} (hl : least ≤ w) (hw : 0 < w) (h : n < 10 ^ w)
    (r : List Char) : digitField? least w (paddedDigits w n ++ r) = some (n, r) := by
  have hlen := length_paddedDigits hw h
  rw [digitField?_append (fun _ => isDigit_of_mem_paddedDigits) (hl.trans_eq hlen.symm) hlen.le
    (.inl hlen), ofDigitChars_paddedDigits]

/-- A field of two digits is read. -/
lemma digitField?_two {n : ℕ} (h : n < 100) (r : List Char) :
    digitField? 2 2 (paddedDigits 2 n ++ r) = some (n, r) :=
  digitField?_padded le_rfl (by decide) h r

/-- A field of two digits is read when leading zeros need not be there. -/
lemma looseField?_two {n : ℕ} (h : n < 100) (r : List Char) :
    looseField? (paddedDigits 2 n ++ r) = some (n, r) := by
  have hblank : trimLeft (paddedDigits 2 n ++ r) = paddedDigits 2 n ++ r := by
    cases hds : paddedDigits 2 n with
    | nil => exact absurd hds (paddedDigits_ne_nil 2 n)
    | cons c ds =>
      have hc : c.isDigit = true := isDigit_of_mem_paddedDigits (hds ▸ List.mem_cons_self)
      simp [trimLeft, isBlank_of_isDigit hc]
  rw [looseField?, hblank, digitField?_padded (by decide) (by decide) h]

/-- A fraction of `w` digits counts units of `10 ^ (9 - w)` nanoseconds. -/
lemma fraction?_padded {w m : ℕ} (hw : 0 < w) (hw9 : w ≤ 9) (hm : m < 10 ^ w) :
    fraction? ('.' :: (paddedDigits w m ++ ['Z'])) = some (m * 10 ^ (9 - w), ['Z']) := by
  have hlen := length_paddedDigits hw hm
  have hspan : (paddedDigits w m ++ ['Z']).takeWhile Char.isDigit = paddedDigits w m :=
    congrArg Prod.fst (spanDigits_append (fun _ => isDigit_of_mem_paddedDigits)
      (r := ['Z']) (by simp [NoDigit]))
  have htake : (paddedDigits w m).take 9 = paddedDigits w m :=
    List.take_of_length_le (hlen.trans_le hw9)
  simp only [fraction?, hspan, List.isEmpty_eq_false_iff.2 (paddedDigits_ne_nil w m),
    Bool.false_eq_true, ↓reduceIte, htake, ofDigitChars_paddedDigits, hlen]
  rw [List.drop_left' hlen]

/-- The fraction of a second is read back. -/
lemma fraction?_render {n : ℕ} (h : n < 10 ^ 9) :
    fraction? (renderFraction n ++ ['Z']) = some (n, ['Z']) := by
  -- three, six or nine digits, the fewest that leave nothing out
  unfold renderFraction
  split
  · rename_i h0
    subst h0
    rfl
  · split
    · rw [List.cons_append, fraction?_padded (w := 3) (by decide) (by decide) (by omega)]
      congr 2
      omega
    · split
      · rw [List.cons_append, fraction?_padded (w := 6) (by decide) (by decide) (by omega)]
        congr 2
        omega
      · rw [List.cons_append, fraction?_padded (w := 9) (by decide) (by decide) h, Nat.sub_self,
          pow_zero, mul_one]

/-! ## Parts -/

/-- A timestamp is the one of its parts. -/
lemma of?_self (t : Timestamp) : of? t.date t.second t.nanos = some t :=
  dif_pos ⟨t.second_lt, t.nanos_lt, t.last_of_leap⟩

/-- Taking no offset off leaves a timestamp as it is. -/
lemma minus?_zero (t : Timestamp) : t.minus? 0 = some t := by
  have hlt := t.second_lt
  have hs : ((t.second : ℤ) - 60 * 0) = t.second := by ring
  simp only [minus?, hs]
  rw [if_neg (by omega), if_neg (by omega), Int.toNat_natCast, of?_self]

/-- A date is the one of its parts. -/
lemma date_of?_self (d : Date) : Date.of? d.year d.month d.day = some d := dif_pos d.isDay

/-- A timestamp is the one of its date and the hour, the minute and the second of its clock. -/
lemma ofClock?_parts (t : Timestamp) :
    ofClock? t.date (t.second / 3600) (t.second / 60 % 60) (t.second % 60 + t.nanos / 10 ^ 9)
      (t.nanos % 10 ^ 9) = some t := by
  have hs := t.second_lt
  have hn := t.nanos_lt
  have hleap := t.last_of_leap
  rw [ofClock?, if_pos (by omega)]
  split
  · rw [show t.second / 3600 * 3600 + t.second / 60 % 60 * 60 + 59 = t.second by omega,
      show t.nanos % 10 ^ 9 + 10 ^ 9 = t.nanos by omega, of?_self]
  · rw [show t.second / 3600 * 3600 + t.second / 60 % 60 * 60 +
        (t.second % 60 + t.nanos / 10 ^ 9) = t.second by omega,
      show t.nanos % 10 ^ 9 = t.nanos by omega, of?_self]

/-- A month takes two digits. -/
lemma month_lt (d : Date) : d.month < 100 := by
  have := d.isDay.2.2.2.1
  omega

/-- A day takes two digits. -/
lemma day_lt (d : Date) : d.day < 100 := by
  have h : d.day ≤ Calendar.daysInMonth d.year d.month := d.isDay.2.2.2.2.2
  have h31 : Calendar.daysInMonth d.year d.month ≤ 31 := by
    unfold Calendar.daysInMonth
    split_ifs <;> decide
  omega

/-! ## Whole texts -/

/-- The clock time and the mark of the offset. -/
def charsOfTime (t : Timestamp) : List Char :=
  paddedDigits 2 (t.second / 3600) ++ ':' :: (paddedDigits 2 (t.second / 60 % 60) ++
    ':' :: (paddedDigits 2 (t.second % 60 + t.nanos / 10 ^ 9) ++
    (renderFraction (t.nanos % 10 ^ 9) ++ ['Z'])))

/-- The text after the year. -/
def charsAfterYear (t : Timestamp) : List Char :=
  '-' :: (paddedDigits 2 t.date.month ++ '-' :: (paddedDigits 2 t.date.day ++ 'T' :: t.charsOfTime))

/-- The text of a timestamp is the year and what comes after it. -/
lemma chars_eq (t : Timestamp) : t.chars = renderYear t.date.year ++ t.charsAfterYear := rfl

/-- A step that succeeds can be left out. -/
lemma bind_of_eq_some {α β : Type} {o : Option α} {a : α} {f : α → Option β} {b : Option β}
    (ha : o = some a) (hb : f a = b) : o.bind f = b := by
  rw [ha]
  exact hb

/-- The text of a timestamp with a year of four digits is read back. -/
lemma readWithOffset?_chars {t : Timestamp} (h : t.IsDated) : readWithOffset? t.chars = some t := by
  have hs := t.second_lt
  have hn := t.nanos_lt
  have hyear : t.date.year.toNat < 10 ^ 4 := by have := h.1; have := h.2; omega
  have hdate : Date.of? t.date.year.toNat t.date.month t.date.day = some t.date := by
    rw [Int.toNat_of_nonneg h.1, date_of?_self]
  rw [chars_eq, show renderYear t.date.year = paddedDigits 4 t.date.year.toNat from if_pos h]
  refine bind_of_eq_some (digitField?_padded le_rfl (by decide) hyear _) ?_
  refine bind_of_eq_some (after?_append ['-'] _) ?_
  refine bind_of_eq_some (digitField?_two (month_lt t.date) _) ?_
  refine bind_of_eq_some (after?_append ['-'] _) ?_
  refine bind_of_eq_some (digitField?_two (day_lt t.date) _) ?_
  refine (if_pos (.inl rfl)).trans (bind_of_eq_some rfl ?_)
  refine bind_of_eq_some (digitField?_two (by omega) _) ?_
  refine bind_of_eq_some (after?_append [':'] _) ?_
  refine bind_of_eq_some (digitField?_two (by omega) _) ?_
  refine bind_of_eq_some (after?_append [':'] _) ?_
  refine bind_of_eq_some (digitField?_two (by omega) _) ?_
  refine bind_of_eq_some (fraction?_render (Nat.mod_lt _ (by decide))) ?_
  refine bind_of_eq_some (a := ((0 : ℤ), [])) rfl ?_
  refine bind_of_eq_some hdate (bind_of_eq_some (ofClock?_parts t) (minus?_zero t))

/-- A year outside the four digits is written with a sign. -/
lemma renderYear_of_not_isDated {t : Timestamp} (h : ¬t.IsDated) :
    (t.date.year = -(t.date.year.natAbs : ℤ) ∧
        renderYear t.date.year = '-' :: paddedDigits 4 t.date.year.natAbs) ∨
      (t.date.year = t.date.year.natAbs ∧
        renderYear t.date.year = '+' :: paddedDigits 4 t.date.year.natAbs) := by
  have hsigned : renderYear t.date.year =
      (if t.date.year < 0 then '-' else '+') :: paddedDigits 4 t.date.year.natAbs := if_neg h
  rcases lt_or_ge t.date.year 0 with hneg | hpos
  · exact .inl ⟨by omega, by rw [hsigned, if_pos hneg]⟩
  · exact .inr ⟨by omega, by rw [hsigned, if_neg (not_lt.2 hpos)]⟩

/-- The text of a timestamp with a signed year is not read where an offset is expected. -/
lemma readWithOffset?_signed {t : Timestamp} (h : ¬t.IsDated) : readWithOffset? t.chars = none := by
  rw [chars_eq]
  rcases renderYear_of_not_isDated h with ⟨-, hyear⟩ | ⟨-, hyear⟩
  · rw [hyear]; rfl
  · rw [hyear]; rfl

/-- A signed year is read where no offset is expected. -/
lemma looseYear?_signed {t : Timestamp} (h : ¬t.IsDated) :
    looseYear? t.chars = some (t.date.year, t.charsAfterYear) := by
  have hread : digitField? 1 (paddedDigits 4 t.date.year.natAbs ++ t.charsAfterYear).length
      (paddedDigits 4 t.date.year.natAbs ++ t.charsAfterYear) =
      some (t.date.year.natAbs, t.charsAfterYear) := by
    rw [digitField?_append (fun _ => isDigit_of_mem_paddedDigits)
      (List.length_pos_iff.2 (paddedDigits_ne_nil _ _)) (by simp)
        (.inr (by simp [NoDigit, charsAfterYear])),
      ofDigitChars_paddedDigits]
  have hminus : ∀ r, looseYear? ('-' :: r) =
      (digitField? 1 r.length r).map fun p => (-(p.1 : ℤ), p.2) := fun _ => rfl
  have hplus : ∀ r, looseYear? ('+' :: r) =
      (digitField? 1 r.length r).map fun p => ((p.1 : ℤ), p.2) := fun _ => rfl
  rw [chars_eq]
  rcases renderYear_of_not_isDated h with ⟨hy, hyear⟩ | ⟨hy, hyear⟩
  · rw [hyear, List.cons_append, hminus, hread, Option.map_some, ← hy]
  · rw [hyear, List.cons_append, hplus, hread, Option.map_some, ← hy]

/-- A date with a signed year is read where no offset is expected. -/
lemma looseDate?_signed {t : Timestamp} (h : ¬t.IsDated) :
    looseDate? t.chars = some (t.date, 'T' :: t.charsOfTime) := by
  refine bind_of_eq_some (looseYear?_signed h) ?_
  refine bind_of_eq_some (after?_append ['-'] _) ?_
  refine bind_of_eq_some (looseField?_two (month_lt t.date) _) ?_
  refine bind_of_eq_some (after?_append ['-'] _) ?_
  refine bind_of_eq_some (looseField?_two (day_lt t.date) _) ?_
  exact bind_of_eq_some (date_of?_self t.date) rfl

/-- No part of a clock time without offset is the `Z` at the end. -/
lemma looseTime?_chars (t : Timestamp) (seconds : Bool) :
    looseTime? t.date seconds t.charsOfTime = none := by
  have hs := t.second_lt
  have hn := t.nanos_lt
  refine bind_of_eq_some (looseField?_two (by omega) _) ?_
  refine bind_of_eq_some (after?_append [':'] _) ?_
  refine bind_of_eq_some (looseField?_two (by omega) _) ?_
  cases seconds with
  | false => exact if_neg Bool.false_ne_true
  | true =>
    refine (if_pos rfl).trans (bind_of_eq_some (after?_append [':'] _) ?_)
    refine bind_of_eq_some (looseField?_two (by omega) _) ?_
    exact bind_of_eq_some (fraction?_render (Nat.mod_lt _ (by decide))) rfl

/-- The text of a timestamp with a signed year is not read without an offset either. -/
lemma readWithoutOffset?_signed {t : Timestamp} (h : ¬t.IsDated) :
    readWithoutOffset? t.chars = none := by
  refine bind_of_eq_some (looseDate?_signed h) ?_
  simp only [looseTime?_chars]
  rfl

/-- The text of a timestamp has no blanks at its ends. -/
lemma trim_chars (t : Timestamp) : trim t.chars = t.chars := by
  obtain ⟨m, hm⟩ : ∃ m, t.chars = m ++ ['Z'] := by
    refine ⟨renderYear t.date.year ++ '-' :: (paddedDigits 2 t.date.month ++ '-' ::
      (paddedDigits 2 t.date.day ++ 'T' :: (paddedDigits 2 (t.second / 3600) ++
      ':' :: (paddedDigits 2 (t.second / 60 % 60) ++
      ':' :: (paddedDigits 2 (t.second % 60 + t.nanos / 10 ^ 9) ++
      renderFraction (t.nanos % 10 ^ 9)))))), ?_⟩
    simp [chars_eq, charsAfterYear, charsOfTime]
  -- a year of four digits starts with a digit, any other with its sign
  have hfirst : ∃ c cs, t.chars = c :: cs ∧ isBlank c = false := by
    by_cases h : t.IsDated
    · cases hds : paddedDigits 4 t.date.year.toNat with
      | nil => exact absurd hds (paddedDigits_ne_nil _ _)
      | cons c ds =>
        have hc : c.isDigit = true := isDigit_of_mem_paddedDigits (hds ▸ List.mem_cons_self)
        refine ⟨c, ds ++ t.charsAfterYear, ?_, isBlank_of_isDigit hc⟩
        rw [chars_eq, show renderYear t.date.year = c :: ds from (if_pos h).trans hds]
        rfl
    · rcases renderYear_of_not_isDated h with ⟨-, hyear⟩ | ⟨-, hyear⟩
      · exact ⟨'-', _, by rw [chars_eq, hyear]; rfl, by decide⟩
      · exact ⟨'+', _, by rw [chars_eq, hyear]; rfl, by decide⟩
  obtain ⟨c, cs, hcs, hc⟩ := hfirst
  refine trim_eq ⟨?_, ?_⟩
  · simp [hcs, hc]
  · rw [hm, List.getLast?_concat]
    rintro _ ⟨⟩
    decide

/-- A timestamp is read back from its text if its year has four digits, and else nothing is. -/
theorem read?_render (t : Timestamp) : read? t.render = if t.IsDated then some t else none := by
  rw [read?, render, String.toList_ofList, trim_chars]
  split
  · rename_i h
    rw [readWithOffset?_chars h]
    rfl
  · rename_i h
    rw [readWithOffset?_signed h, readWithoutOffset?_signed h]
    rfl

end ProvenTables.Timestamp
