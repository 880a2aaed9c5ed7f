import ProvenTables.Proofs.Json.Number

/-!
# Numbers in texts

The text of an integer and of a finite number reads back as the number.
-/

namespace ProvenTables

namespace Text

/-- A digit is no character that is not a digit. -/
lemma ne_of_isDigit {c k : Char} (hc : c.isDigit = true) (hk : k.isDigit = false) : c ≠ k := by
  rintro rfl
  rw [hc] at hk
  cases hk

/-- An integer reads back from its text. -/
theorem readInt?_toString (n : ℤ) : readInt? (toString n).toList = some n := by
  rw [toList_toString_int]
  split
  · rw [List.singleton_append, readInt?, readNat?_digits]
    change some (-(n.natAbs : ℤ)) = some n
    congr 1
    omega
  · obtain ⟨d, ds, hds⟩ := List.exists_cons_of_ne_nil (digits_ne_nil n.natAbs)
    have hd : d.isDigit = true := isDigit_of_mem_digits (hds ▸ List.mem_cons_self)
    have hread : readInt? (d :: ds) = (readNat? (d :: ds)).map Int.ofNat :=
      readInt?.eq_3 _ (fun _ h => ne_of_isDigit hd rfl (List.cons.inj h).1)
        fun _ h => ne_of_isDigit hd rfl (List.cons.inj h).1
    rw [List.nil_append, hds, hread, ← hds, readNat?_digits, Option.map_some]
    congr 1
    exact Int.natAbs_of_nonneg (by omega)

end Text

namespace Binary64

open Text

/-- Reading a number from its parts. -/
lemma readUnsigned?_parts (negative : Bool) {whole frac part t : List Char} {e : ℤ} (hne : whole ≠ [])
    (hw : ∀ c ∈ whole, c.isDigit = true) (hp : ∀ c ∈ part, c.isDigit = true)
    (hfrac : frac = '.' :: part ∨ part = [] ∧ frac = []) (ht : t = [] ∨ ∃ r, t = 'e' :: r)
    (he : readExponent? t = some e) :
    readUnsigned? negative (whole ++ (frac ++ t)) =
      some (ofDecimal negative ⟨Nat.ofDigitChars 10 (whole ++ part) 0, e - part.length⟩) := by
  have hnodigit : NoDigit t := by
    rcases ht with rfl | ⟨r, rfl⟩
    · exact fun c hc => by cases hc
    · exact fun c hc => by cases hc; decide
  have hwhole : spanDigits (whole ++ (frac ++ t)) = (whole, frac ++ t) := by
    refine spanDigits_append hw ?_
    rcases hfrac with rfl | ⟨-, rfl⟩
    · exact fun c hc => by cases hc; decide
    · exact hnodigit
  have hisEmpty : whole.isEmpty = false := List.isEmpty_eq_false_iff.2 hne
  rcases hfrac with rfl | ⟨rfl, rfl⟩
  · rw [readUnsigned?, hwhole]
    simp [spanDigits_append hp hnodigit, hisEmpty, he]
  · rw [readUnsigned?, hwhole]
    rcases ht with rfl | ⟨r, rfl⟩ <;> simp [hisEmpty, he]

/-- A text that begins with a digit is no word. -/
lemma readMagnitude?_of_isDigit (negative : Bool) {c : Char} {cs : List Char} (hc : c.isDigit = true) :
    readMagnitude? negative (c :: cs) = readUnsigned? negative (c :: cs) := by
  have hlower : c.toLower = c := by
    simp only [Char.isDigit, Bool.and_eq_true, decide_eq_true_eq] at hc
    exact dif_neg fun h => absurd (UInt32.le_trans h.1 hc.2) (by decide)
  have hword : ∀ (k : Char) (w : List Char), k.isDigit = false →
      String.ofList ((c :: cs).map Char.toLower) ≠ String.ofList (k :: w) := by
    intro k w hk h
    rw [String.ofList_inj, List.map_cons, hlower] at h
    exact ne_of_isDigit hc hk (List.cons.inj h).1
  rw [readMagnitude?, if_neg, if_neg]
  · exact hword 'n' ['a', 'n'] rfl
  · rintro (h | h)
    · exact hword 'i' ['n', 'f'] rfl h
    · exact hword 'i' ['n', 'f', 'i', 'n', 'i', 't', 'y'] rfl h

/-- The sign is read before the digits. -/
lemma read?_sign (negative : Bool) {c : Char} {cs : List Char} (hc : c.isDigit = true) :
    read? ((if negative then ['-'] else []) ++ c :: cs) = readUnsigned? negative (c :: cs) := by
  cases negative with
  | true => exact readMagnitude?_of_isDigit true hc
  | false =>
    rw [← readMagnitude?_of_isDigit false hc]
    exact read?.eq_3 _ (fun _ h => ne_of_isDigit hc rfl (List.cons.inj h).1)
      fun _ h => ne_of_isDigit hc rfl (List.cons.inj h).1

/-- What the text of a finite number consists of, and the decimal that these parts stand for. -/
lemma exists_parts_render {x : Binary64} (hx : x.isFinite) : ∃ whole frac part t e,
    (x.render .text).toList = (if x.isNegative then ['-'] else []) ++ (whole ++ (frac ++ t)) ∧
    whole ≠ [] ∧ (∀ c ∈ whole, c.isDigit = true) ∧ (∀ c ∈ part, c.isDigit = true) ∧
    (frac = '.' :: part ∨ part = [] ∧ frac = []) ∧ (t = [] ∧ e = 0 ∨ t = 'e' :: (toString e).toList) ∧
    ofDecimal false ⟨Nat.ofDigitChars 10 (whole ++ part) 0, e - part.length⟩ = x.abs := by
  obtain ⟨ds, p, hds⟩ : ∃ ds p, x.shortestDigits FloatStyle.text.tie = (ds, p) := ⟨_, _, rfl⟩
  obtain ⟨hne, hd, hhead, hval⟩ := shortestDigits_spec hx hds
  rw [toList_render .text hx hds]
  -- a number of moderate size is written without an exponent, any other in scientific notation
  by_cases hplain : FloatStyle.text.plainFrom ≤ p - 1 ∧ p - 1 < FloatStyle.text.plainBelow
  · have hw : ds.head? ≠ some '0' ∨ ds = ['0'] ∧ p = 1 := by
      split at hhead
      · exact .inr hhead
      · exact .inl hhead
    obtain ⟨whole, part, h⟩ := Json.exists_isPositional hne hd hw
    refine ⟨whole, '.' :: part, part, [], 0, ?_, ?_, h.whole_digits, h.part_digits, .inl rfl,
      .inl ⟨rfl, rfl⟩, ?_⟩
    · rw [if_pos hplain, List.append_nil, ← h.text]
      rfl
    · rintro rfl
      cases h.isWhole
    · rw [← hval]
      exact ofDecimal_congr (by simpa using h.value)
  · obtain ⟨d, rest, rfl⟩ := List.exists_cons_of_ne_nil hne
    obtain ⟨hdd, hrest⟩ := List.forall_mem_cons.1 hd
    refine ⟨[d], if rest = [] then [] else '.' :: rest, rest, 'e' :: (toString (p - 1)).toList, p - 1, ?_,
      List.cons_ne_nil _ _, List.forall_mem_singleton.2 hdd, hrest, ?_, .inr rfl, ?_⟩
    · rw [if_neg hplain, toList_toString_int]
      cases rest <;> simp [scientific, FloatStyle.text]
    · split
      · exact .inr ⟨‹_›, rfl⟩
      · exact .inl rfl
    · rw [← hval, List.singleton_append, List.length_cons]
      congr 2
      omega

/-- A finite number reads back from its text. -/
theorem readFinite?_render {x : Binary64} (hx : x.isFinite) :
    readFinite? (x.render .text).toList = some x := by
  obtain ⟨whole, frac, part, t, e, htext, hne, hw, hp, hfrac, ht, hval⟩ := exists_parts_render hx
  have hexponent : readExponent? t = some e := by
    rcases ht with ⟨rfl, rfl⟩ | rfl
    · rfl
    · exact readInt?_toString e
  have hread := readUnsigned?_parts x.isNegative hne hw hp hfrac
    (ht.imp (·.1) fun h => ⟨_, h⟩) hexponent
  obtain ⟨c, cs, hcs⟩ := List.exists_cons_of_ne_nil hne
  have hc : c.isDigit = true := hw c (hcs ▸ List.mem_cons_self)
  rw [readFinite?, htext, hcs, List.cons_append, read?_sign x.isNegative hc, ← List.cons_append, ← hcs,
    hread, ofDecimal_sign hval, ofMagnitude_magnitude, Option.filter_some, if_pos hx]

end Binary64

end ProvenTables
