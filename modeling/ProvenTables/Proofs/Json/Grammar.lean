import ProvenTables.Proofs.Json.Number

/-!
# Spellings of JSON values

The grammar of JSON texts as a relation between values and the texts that stand for them: any white space
between the parts, any spelling of the characters of a string, plain or escaped, and any notation of a
number. Numbers and strings are read from their spellings and from nothing else, whatever comes behind them
(`readNumber?_of_spells`, `spells_of_readNumber?`, `readString?_of_spells`, `spells_of_readString?`).
-/

namespace ProvenTables.Json

open Binary64

/-! ## Grammar -/

/-- Whether all characters are digits. -/
def AllDigits (ds : List Char) : Prop := ∀ c ∈ ds, c.isDigit = true

/-- The digits of a fraction and its text. Without a fraction there are no digits. -/
inductive SpellsFraction : List Char → List Char → Prop
  | absent : SpellsFraction [] []
  | point {ds} : ds ≠ [] → AllDigits ds → SpellsFraction ds ('.' :: ds)

/-- The sign of an exponent, which is positive unless it has a minus. -/
inductive SpellsSign : Bool → List Char → Prop
  | absent : SpellsSign false []
  | plus : SpellsSign false ['+']
  | minus : SpellsSign true ['-']

/-- An exponent and its text. -/
inductive SpellsExponent : Option ℤ → List Char → Prop
  | absent : SpellsExponent none []
  | digits {e negative sign ds} : e = 'e' ∨ e = 'E' → SpellsSign negative sign → ds ≠ [] → AllDigits ds →
    SpellsExponent
      (some (if negative then -(Nat.ofDigitChars 10 ds 0 : ℤ) else (Nat.ofDigitChars 10 ds 0 : ℕ)))
      (e :: (sign ++ ds))

/-- A number and its notations. -/
inductive SpellsNumber : JsonNumber → List Char → Prop
  | mk {n negative whole part exponent fs es} : AllDigits whole → isWhole whole = true →
    SpellsFraction part fs → SpellsExponent exponent es → number? negative whole part exponent = some n →
    SpellsNumber n ((if negative then ['-'] else []) ++ whole ++ (fs ++ es))

/-- A character in a string literal and its spellings: itself, a letter after a backslash, four hexadecimal
digits, or twice four of them for a pair of surrogates. -/
inductive SpellsChar : Char → List Char → Prop
  | plain {c} : 32 ≤ c.toNat → c ≠ '"' → c ≠ '\\' → SpellsChar c [c]
  | letter {l c} : unescape? l = some c → SpellsChar c ['\\', l]
  | unit {a b c d n} : codeUnit? a b c d = some n → n < 0xD800 ∨ 0xE000 ≤ n →
    SpellsChar (Char.ofNat n) ['\\', 'u', a, b, c, d]
  | pair {a b c d e f g h hi lo} : codeUnit? a b c d = some hi → codeUnit? e f g h = some lo →
    0xD800 ≤ hi → hi < 0xDC00 → 0xDC00 ≤ lo → lo < 0xE000 →
    SpellsChar (Char.ofNat (0x10000 + (hi - 0xD800) * 0x400 + (lo - 0xDC00)))
      ['\\', 'u', a, b, c, d, '\\', 'u', e, f, g, h]

/-- The characters of a string and what may stand for them between quotes. -/
inductive SpellsString : List Char → List Char → Prop
  | nil : SpellsString [] []
  | cons {c cs a as} : SpellsChar c a → SpellsString cs as → SpellsString (c :: cs) (a ++ as)

/-- Whether a text is white space, or empty. -/
def AllSpace (ws : List Char) : Prop := ∀ c ∈ ws, isSpace c = true

/-- The name of a field with the colon after it. -/
inductive SpellsName : String → List Char → Prop
  | mk {k as ws} : SpellsString k.toList as → AllSpace ws → SpellsName k ('"' :: (as ++ '"' :: (ws ++ [':'])))

mutual

/-- A value and its texts, without white space around them. -/
inductive Spells : Json → List Char → Prop
  | null : Spells null ['n', 'u', 'l', 'l']
  | true : Spells (bool true) ['t', 'r', 'u', 'e']
  | false : Spells (bool false) ['f', 'a', 'l', 's', 'e']
  | num {n a} : SpellsNumber n a → Spells (num n) a
  | str {s as} : SpellsString s.toList as → Spells (str s) ('"' :: (as ++ ['"']))
  | emptyArr {ws} : AllSpace ws → Spells (arr []) ('[' :: (ws ++ [']']))
  | arr {v vs ws a b} : AllSpace ws → Spells v a → SpellsItems vs b →
    Spells (arr (v :: vs)) ('[' :: (ws ++ (a ++ b)))
  | emptyObj {ws} : AllSpace ws → Spells (obj []) ('{' :: (ws ++ ['}']))
  | obj {k v fs ws ws' name a b} : AllSpace ws → SpellsName k name → AllSpace ws' → Spells v a →
    SpellsFields fs b → Spells (obj ((k, v) :: fs)) ('{' :: (ws ++ (name ++ (ws' ++ (a ++ b)))))

/-- The items of an array after the first, with white space before each part, and its end. -/
inductive SpellsItems : List Json → List Char → Prop
  | nil {ws} : AllSpace ws → SpellsItems [] (ws ++ [']'])
  | cons {v vs ws ws' a b} : AllSpace ws → AllSpace ws' → Spells v a → SpellsItems vs b →
    SpellsItems (v :: vs) (ws ++ ',' :: (ws' ++ (a ++ b)))

/-- The fields of an object after the first, with white space before each part, and its end. -/
inductive SpellsFields : List (String × Json) → List Char → Prop
  | nil {ws} : AllSpace ws → SpellsFields [] (ws ++ ['}'])
  | cons {k v fs ws ws' ws'' name a b} : AllSpace ws → AllSpace ws' → SpellsName k name → AllSpace ws'' →
    Spells v a → SpellsFields fs b →
    SpellsFields ((k, v) :: fs) (ws ++ ',' :: (ws' ++ (name ++ (ws'' ++ (a ++ b)))))

end

/-- A value and its texts, with any white space around them. -/
def IsSpelled (v : Json) (text : String) : Prop :=
  ∃ ws a ws', text.toList = ws ++ (a ++ ws') ∧ AllSpace ws ∧ Spells v a ∧ AllSpace ws'

/-! ## Nesting -/

mutual

/-- The greatest number of containers around each other. -/
def depth : Json → ℕ
  | arr items => depthOfItems items + 1
  | obj fields => depthOfFields fields + 1
  | _ => 0

/-- The greatest depth of the items of a list. -/
def depthOfItems : List Json → ℕ
  | [] => 0
  | v :: vs => max (depth v) (depthOfItems vs)

/-- The greatest depth of the values of fields. -/
def depthOfFields : List (String × Json) → ℕ
  | [] => 0
  | (_, v) :: fs => max (depth v) (depthOfFields fs)

end

/-! ## Numbers -/

section

variable {cs ds r as : List Char}

/-- The digits at the front and what follows them are all characters. -/
lemma spanDigits_eq {whole : List Char} (h : spanDigits cs = (whole, r)) :
    cs = whole ++ r ∧ AllDigits whole := by
  cases h
  exact ⟨List.takeWhile_append_dropWhile.symm, fun c hc => List.mem_takeWhile_imp hc⟩

/-- A character that is no digit ends a numeral. -/
lemma noDigit_cons {c : Char} (h : c.isDigit = false) (r : List Char) : NoDigit (c :: r) := by
  intro d hd
  cases hd
  exact h

/-- A fraction that is spelled is read. -/
lemma readFraction?_of_spells {part fs : List Char} (h : SpellsFraction part fs) (hr : NoDigit r)
    (hdot : r.head? ≠ some '.') : readFraction? (fs ++ r) = some (part, r) := by
  cases h with
  | absent => exact readFraction?_none hdot
  | point hne hd => exact readFraction?_digits hne hd hr

/-- A fraction that is read has been spelled. -/
lemma spells_of_readFraction? {part : List Char} (h : readFraction? cs = some (part, r)) :
    ∃ fs, cs = fs ++ r ∧ SpellsFraction part fs := by
  unfold readFraction? at h
  split at h
  · rename_i rest
    obtain ⟨ds, r', hspan⟩ : ∃ ds r', spanDigits rest = (ds, r') := ⟨_, _, rfl⟩
    obtain ⟨rfl, hd⟩ := spanDigits_eq hspan
    simp only [hspan] at h
    split at h
    · cases h
    · rename_i hne
      cases h
      exact ⟨'.' :: part, rfl, .point (by simpa using hne) hd⟩
  · cases h
    exact ⟨[], rfl, .absent⟩

/-- An exponent that is spelled is read. -/
lemma readExponent?_of_spells {exponent : Option ℤ} {es : List Char} (h : SpellsExponent exponent es)
    (hr : NumberEnds r) : readExponent? (es ++ r) = some (exponent, r) := by
  cases h with
  | absent => exact readExponent?_of_ends hr
  | @digits e negative sign ds he hsign hne hd =>
    have hspan : spanDigits (ds ++ r) = (ds, r) := spanDigits_append hd hr.noDigit
    have hempty : ds.isEmpty = false := List.isEmpty_eq_false_iff.2 hne
    cases hsign with
    | plus | minus => simp [readExponent?, he, hspan, hempty]
    | absent =>
      -- without a sign the text goes on with a digit
      obtain ⟨d, ds, rfl⟩ := List.exists_cons_of_ne_nil hne
      have hdigit : d.isDigit = true := hd d List.mem_cons_self
      have hminus : d ≠ '-' := by rintro rfl; exact absurd hdigit (by decide)
      have hplus : d ≠ '+' := by rintro rfl; exact absurd hdigit (by decide)
      rw [List.cons_append] at hspan
      simp [readExponent?, he, hminus, hplus, hspan]

/-- An exponent that is read has been spelled. -/
lemma spells_of_readExponent? {exponent : Option ℤ} (h : readExponent? cs = some (exponent, r)) :
    ∃ es, cs = es ++ r ∧ SpellsExponent exponent es := by
  have hdigits : ∀ {e : Char} {negative : Bool} {sign rest ds r' : List Char}, e = 'e' ∨ e = 'E' →
      SpellsSign negative sign → spanDigits rest = (ds, r') →
      (if ds.isEmpty then none
        else some (some (if negative then -(Nat.ofDigitChars 10 ds 0 : ℤ)
          else (Nat.ofDigitChars 10 ds 0 : ℕ)), r')) = some (exponent, r) →
      ∃ es, e :: (sign ++ rest) = es ++ r ∧ SpellsExponent exponent es := by
    intro e negative sign rest ds r' he hsign hspan h
    obtain ⟨rfl, hd⟩ := spanDigits_eq hspan
    split at h
    · cases h
    · rename_i hne
      cases h
      exact ⟨e :: (sign ++ ds), by simp, .digits he hsign (by simpa using hne) hd⟩
  -- there is no exponent, or one with a minus, a plus or no sign
  unfold readExponent? at h
  split at h
  · cases h
    exact ⟨[], rfl, .absent⟩
  · split at h
    · rename_i he
      split at h
      rename_i negative rest hsign
      split at hsign
      · cases hsign
        exact hdigits he .minus rfl h
      · cases hsign
        exact hdigits he .plus rfl h
      · cases hsign
        exact hdigits he .absent rfl h
    · cases h
      exact ⟨[], rfl, .absent⟩

/-- A number is read from its notations, whatever comes behind them that is no part of a number. -/
theorem readNumber?_of_spells {n : JsonNumber} {a : List Char} (h : SpellsNumber n a) (hr : NumberEnds r) :
    readNumber? (a ++ r) = some (n, r) := by
  cases h with
  | @mk negative whole part exponent fs es hd hw hf he hn =>
    have hexponent : NoDigit (es ++ r) ∧ (es ++ r).head? ≠ some '.' := by
      cases he with
      | absent => exact ⟨hr.noDigit, fun hdot => (hr _ hdot).2.1 rfl⟩
      | digits he => rcases he with rfl | rfl <;> exact ⟨noDigit_cons rfl _, by simp⟩
    have hfraction : NoDigit (fs ++ (es ++ r)) := by
      cases hf with
      | absent => exact hexponent.1
      | point => exact noDigit_cons rfl _
    have hnumeral := readNumeral?_append negative hd hw hfraction
      (readFraction?_of_spells hf hexponent.1 hexponent.2) (readExponent?_of_spells he hr)
    rw [List.append_assoc _ (fs ++ es), List.append_assoc fs, readNumber?, hnumeral]
    simp [hn]

/-- What is read after a sign is spelled with it. -/
lemma spells_of_numeral {n : JsonNumber} {numeral : Numeral} {negative : Bool} {whole r₀ : List Char}
    (hn : number? numeral.negative numeral.whole numeral.part numeral.exponent = some n)
    (hspan : spanDigits cs = (whole, r₀))
    (h : (if !isWhole whole then none
      else (readFraction? r₀).bind fun p => (readExponent? p.2).bind fun e =>
        some (⟨negative, whole, p.1, e.1⟩, e.2)) = some (numeral, r)) :
    ∃ a, (if negative then ['-'] else []) ++ cs = a ++ r ∧ SpellsNumber n a := by
  obtain ⟨rfl, hd⟩ := spanDigits_eq hspan
  split at h
  · cases h
  · rename_i hwhole
    obtain ⟨⟨part, r₁⟩, hpart, h⟩ := Option.bind_eq_some_iff.1 h
    obtain ⟨⟨exponent, r₂⟩, hexponent, h⟩ := Option.bind_eq_some_iff.1 h
    cases h
    obtain ⟨fs, rfl, hf⟩ := spells_of_readFraction? hpart
    obtain ⟨es, rfl, he⟩ := spells_of_readExponent? hexponent
    exact ⟨_, by simp only [List.append_assoc], .mk hd (by simpa using hwhole) hf he hn⟩

/-- What is read as a number is one of its notations. -/
theorem spells_of_readNumber? {n : JsonNumber} (h : readNumber? cs = some (n, r)) :
    ∃ a, cs = a ++ r ∧ SpellsNumber n a := by
  obtain ⟨⟨numeral, r'⟩, hnumeral, h⟩ := Option.bind_eq_some_iff.1 h
  obtain ⟨m, hm, h⟩ := Option.bind_eq_some_iff.1 h
  cases h
  unfold readNumeral? at hnumeral
  split at hnumeral
  rename_i negative rest hsign
  split at hsign
  · cases hsign
    exact spells_of_numeral hm rfl hnumeral
  · cases hsign
    exact spells_of_numeral hm rfl hnumeral

end

/-! ## Strings -/

section

variable {cs as a r : List Char} {c : Char}

/-- A character that is spelled in a text is read as the next character. -/
lemma readString?_of_spellsChar (h : SpellsChar c a) (r : List Char) :
    readString? (a ++ r) = (readString? r).map fun p => (c :: p.1, p.2) := by
  cases h with
  | plain hc hquote hslash =>
    have hrange : ¬ (c.toNat < 32 ∨ c = '\\') := by
      rintro (h | h)
      · omega
      · exact hslash h
    rw [List.singleton_append, readString?.eq_5 c r hquote (fun _ _ _ _ _ h _ => hslash h)
      (fun _ _ h _ => hslash h), if_neg hrange]
  | @letter l _ hl =>
    have hu : l ≠ 'u' := by
      rintro rfl
      cases hl
    rw [List.cons_append, List.singleton_append, readString?.eq_4 l r fun _ _ _ _ _ h _ => hu h, hl]
  | unit hn hrange =>
    simp only [List.cons_append, List.nil_append, readString?, hn]
    rw [if_neg (by omega), if_neg (by omega)]
  | pair hhi hlo h₁ h₂ h₃ h₄ =>
    simp only [List.cons_append, List.nil_append, readString?, hhi, hlo]
    rw [if_pos ⟨h₁, h₂⟩, if_pos ⟨h₃, h₄⟩]

/-- A string is read from its spellings. -/
theorem readString?_of_spells (h : SpellsString cs as) (r : List Char) :
    readString? (as ++ '"' :: r) = some (cs, r) := by
  induction h with
  | nil => simp [readString?]
  | cons hc _ ih =>
    rw [List.append_assoc, readString?_of_spellsChar hc, ih]
    rfl

/-- What is read as a string is one of its spellings. -/
theorem spells_of_readString? (h : readString? cs = some (as, r)) :
    ∃ a, cs = a ++ '"' :: r ∧ SpellsString as a := by
  have hchar : ∀ {c a rest as r}, SpellsChar c a →
      (∀ {as r}, readString? rest = some (as, r) → ∃ b, rest = b ++ '"' :: r ∧ SpellsString as b) →
      (readString? rest).map (fun p => (c :: p.1, p.2)) = some (as, r) →
      ∃ b, a ++ rest = b ++ '"' :: r ∧ SpellsString as b := by
    intro c a rest as r hc ih h
    obtain ⟨⟨as, r⟩, hrest, hp⟩ := Option.map_eq_some_iff.1 h
    cases hp
    obtain ⟨b, rfl, hb⟩ := ih hrest
    exact ⟨a ++ b, by rw [List.append_assoc], .cons hc hb⟩
  fun_induction readString? cs generalizing as r with
  | case1 | case3 | case4 | case6 | case7 | case8 | case10 | case12 => cases h
  | case2 =>
    cases h
    exact ⟨[], rfl, .nil⟩
  | case5 a b c d hi hhi hsurrogate e f g i rest lo hlo hsurrogate' ih =>
    exact hchar (.pair hhi hlo hsurrogate.1 hsurrogate.2 hsurrogate'.1 hsurrogate'.2) ih h
  | case9 a b c d rest n hn hhi hlo ih => exact hchar (.unit hn (by omega)) ih h
  | case11 l rest _ c hl ih => exact hchar (.letter hl) ih h
  | case13 c rest hquote _ _ hrange ih =>
    rw [not_or] at hrange
    exact hchar (.plain (by omega) hquote hrange.2) ih h

end

end ProvenTables.Json
