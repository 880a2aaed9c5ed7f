import ProvenTables.Proofs.Sql.Spacing

/-!
# Searching for keywords

The places where a keyword stands as a whole word of the top level determine both the number of its
standings and how a text is split at it. In a text of words with single spaces between them they are
beginnings of words, so that a search goes past a text no word of which begins the keyword.
-/

namespace ProvenTables.Sql

open Text

/-- The places of the top-level standings of a keyword as a whole word, in a text that begins at the
given place. -/
def placesFrom (word : List Char) : ℕ → Nesting → (fresh : Bool) → List Char → List ℕ
  | _, _, _, [] => []
  | n, s, fresh, c :: cs =>
    (if fresh && s.isTop c && beginsWith word (c :: cs) then [n] else []) ++
      placesFrom word (n + 1) (s.next c) (isBlank c) cs

section

variable {K : List Char} {s : Nesting} {fresh : Bool} {cs r : List Char} {n : ℕ}

/-- Places that are counted from a later start are later by as much. -/
lemma placesFrom_add (K : List Char) (n m : ℕ) (s : Nesting) (fresh : Bool) (cs : List Char) :
    placesFrom K (n + m) s fresh cs = (placesFrom K n s fresh cs).map (· + m) := by
  induction cs generalizing n s fresh with
  | nil => rfl
  | cons c cs ih =>
    rw [placesFrom, placesFrom, List.map_append, ← ih, Nat.add_right_comm n m 1]
    split <;> rfl

/-- A word stands as often as it has places. -/
lemma countWordFrom_eq (K : List Char) (n : ℕ) (s : Nesting) (fresh : Bool) (cs : List Char) :
    countWordFrom K s fresh cs = (placesFrom K n s fresh cs).length := by
  induction cs generalizing n s fresh with
  | nil => rfl
  | cons c cs ih =>
    rw [countWordFrom, placesFrom, ih (n + 1), List.length_append, Nat.add_comm]
    split <;> rfl

/-- A text is split at the first place. -/
lemma splitAtWordFrom?_eq (K : List Char) (s : Nesting) (fresh : Bool) (cs : List Char) :
    splitAtWordFrom? K s fresh cs =
      (placesFrom K 0 s fresh cs).head?.map fun n => (cs.take n, cs.drop (n + K.length)) := by
  induction cs generalizing s fresh with
  | nil => rfl
  | cons c cs ih =>
    rw [splitAtWordFrom?, placesFrom]
    split
    · simp
    · rw [List.nil_append, placesFrom_add, ih, List.head?_map, Option.map_map, Option.map_map]
      congr 1
      ext1 n
      simp [Nat.add_right_comm n 1]

/-- Whether a text begins with a letter. -/
def IsKeyword (K : List Char) : Prop := ∃ c ∈ K.head?, c.isAlpha = true

/-- The word of a keyword is a keyword. -/
lemma isKeyword_word (k : Keyword) : IsKeyword k.word.toList := by
  cases k <;> exact ⟨_, rfl, rfl⟩

/-- The words of a clause are a keyword. -/
lemma isKeyword_keyword (c : Clause) : IsKeyword c.keyword.toList := by
  cases c <;> exact ⟨_, rfl, rfl⟩

/-- Characters begin with a word if the word stands in front and ends there. -/
lemma beginsWith_iff : beginsWith K cs = true ↔ ∃ r, cs = K ++ r ∧ endsWord r = true := by
  rw [beginsWith]
  split
  · rename_i r hr
    rw [after?_eq_some_iff] at hr
    subst hr
    exact ⟨fun h => ⟨r, rfl, h⟩, fun ⟨t, ht, hends⟩ => List.append_cancel_left ht ▸ hends⟩
  · rename_i hr
    refine ⟨nofun, ?_⟩
    rintro ⟨r, rfl, -⟩
    simp [after?_append] at hr

/-- Characters that start with no letter begin with no keyword. -/
lemma beginsWith_cons_eq_false (hK : IsKeyword K) {c : Char} (hc : c.isAlpha = false) :
    beginsWith K (c :: cs) = false := by
  obtain ⟨k, hk, halpha⟩ := hK
  rw [Bool.eq_false_iff, ne_eq, beginsWith_iff]
  rintro ⟨r, hr, -⟩
  cases K with
  | nil => cases hk
  | cons d K =>
    cases hk
    cases hr
    rw [hc] at halpha
    cases halpha

/-- A fresh start differs in what stands at the start. -/
lemma placesFrom_fresh (K : List Char) (n : ℕ) (s : Nesting) (c : Char) (cs : List Char) :
    placesFrom K n s true (c :: cs) =
      (if s.isTop c && beginsWith K (c :: cs) then [n] else []) ++ placesFrom K n s false (c :: cs) := by
  simp [placesFrom]

/-- No keyword stands at a blank, and one can stand after it. -/
lemma placesFrom_space (hK : IsKeyword K) :
    placesFrom K n .top fresh (' ' :: cs) = placesFrom K (n + 1) .top true cs := by
  have hnext : Nesting.top.next ' ' = .top := Nesting.next_of_isPlain _ (by decide)
  rw [placesFrom, beginsWith_cons_eq_false hK rfl, Bool.and_false, hnext]
  rfl

/-- No keyword is found within quotes and brackets. -/
lemma placesFrom_inner {z : Char} (h : s.IsInner (cs ++ [z])) (hz : isBlank z = false) :
    placesFrom K n s fresh (cs ++ z :: r) =
      placesFrom K (n + cs.length + 1) (s.after (cs ++ [z])) false r := by
  induction cs generalizing n s fresh with
  | nil => simp [placesFrom, show s.isTop z = false from h.1, hz, Nesting.after]
  | cons c cs ih =>
    rw [List.cons_append, placesFrom, show s.isTop c = false from h.1, ih h.2, List.length_cons,
      Nat.add_right_comm n 1, Nat.add_assoc n]
    simp [Nesting.after]

/-- A search goes past what is left of a word. -/
lemma placesFrom_balanced (h : Balanced (isBlank · = false) cs) :
    placesFrom K n .top false (cs ++ r) = placesFrom K (n + cs.length) .top false r := by
  generalize hP : (isBlank · = false) = P at h
  induction h generalizing n with
  | nil => rfl
  | @plain P c cs hc hcP _ ih =>
    subst hP
    rw [List.cons_append, placesFrom, Nesting.next_of_isPlain _ hc, hcP, ih rfl, List.length_cons,
      Nat.add_right_comm, Nat.add_assoc n]
    rfl
  | @quoted P body cs hbody _ ih =>
    -- no keyword is found inside quotes or brackets, whatever the text there
    obtain ⟨hinner, hafter⟩ := Nesting.inner_quoted (d := 0) hbody
    rw [List.cons_append, List.append_assoc, List.cons_append, placesFrom, Nesting.next_quoteMark]
    refine (placesFrom_inner hinner (by decide)).trans ?_
    rw [hafter]
    refine (ih hP).trans ?_
    simp only [List.length_cons, List.length_append]
    congr 1
    omega
  | @nested P o k body cs ho hk hbody _ _ ih =>
    obtain ⟨hinner, hafter⟩ := Nesting.inner_balanced (d := 0) hbody
    have hclosed : Nesting.IsInner ⟨false, 1⟩ (body ++ [k]) ∧
        Nesting.after ⟨false, 1⟩ (body ++ [k]) = .top := by
      refine ⟨Nesting.isInner_append.2 ⟨hinner, ?_⟩, ?_⟩
      · rw [hafter]
        exact ⟨by simp [Nesting.isTop], trivial⟩
      · rw [Nesting.after_append, hafter]
        exact Nesting.next_of_isClosing hk
    -- the closing bracket is not blank, so no keyword starts right after it
    have hblank : isBlank k = false := by
      simp only [Nesting.isClosing, Bool.or_eq_true, beq_iff_eq] at hk
      rcases hk with rfl | rfl <;> decide
    rw [List.cons_append, List.append_assoc, List.cons_append, placesFrom,
      show Nesting.top.next o = ⟨false, 1⟩ from Nesting.next_of_isOpening ho,
      placesFrom_inner hclosed.1 hblank, hclosed.2, ih hP]
    simp only [List.length_cons, List.length_append, Bool.false_and, Bool.false_eq_true, ↓reduceIte,
      List.nil_append]
    congr 1
    omega

end

/-! ## Words -/

/-- Whether a text is a word: without blanks outside of quotes and brackets. -/
abbrev IsWord (w : List Char) : Prop := IsText (isBlank · = false) w

/-- Whether a search for a keyword goes past a text that has a rest behind it. -/
def Passes (K a rest : List Char) : Prop :=
  ∀ n, placesFrom K n .top true (a ++ rest) = placesFrom K (n + a.length) .top false rest

section

variable {K a b w rest r : List Char}

/-- Places in a text begin with its first word or are behind it. -/
lemma placesFrom_word (hK : IsKeyword K) (hw : IsWord w) (n : ℕ) :
    placesFrom K n .top true (w ++ rest) =
      (if beginsWith K (w ++ rest) then [n] else []) ++ placesFrom K (n + w.length) .top false rest := by
  have hfirst : ∀ c w', w = c :: w' →
      (Nesting.top.isTop c && beginsWith K (c :: (w' ++ rest))) = beginsWith K (c :: (w' ++ rest)) := by
    intro c w' h
    have hbalanced := h ▸ hw.balanced
    -- a quote is not of the top level, but begins no keyword either
    cases hbalanced with
    | plain hc => simp [Nesting.isTop, Nesting.top, hc.1, hc.2.2]
    | quoted => rw [beginsWith_cons_eq_false hK (by decide), Bool.and_false]
    | nested ho => rw [beginsWith_cons_eq_false hK (Nesting.isAlpha_of_isOpening ho), Bool.and_false]
  obtain ⟨c, w', rfl⟩ := List.exists_cons_of_ne_nil hw.sharp.ne_nil
  have hrest := placesFrom_balanced (K := K) (n := n) (r := rest) hw.balanced
  rw [List.cons_append] at hrest ⊢
  rw [placesFrom_fresh, hfirst c w' rfl, hrest]

/-- A word that is no keyword is passed without finding one. -/
lemma passes_word (hK : IsKeyword K) (hw : IsWord w) (h : beginsWith K (w ++ rest) = false) :
    Passes K w rest := by
  intro n
  rw [placesFrom_word hK hw, h]
  rfl

/-- Two texts are passed with a blank between them if each is passed. -/
lemma Passes.spaced (hK : IsKeyword K) (ha : Passes K a (' ' :: (b ++ rest))) (hb : Passes K b rest) :
    Passes K (a ++ ' ' :: b) rest := by
  intro n
  rw [List.append_assoc, List.cons_append, ha, placesFrom_space hK, hb, List.length_append,
    List.length_cons, Nat.add_assoc, Nat.add_assoc, Nat.add_comm 1]

/-- Whether no character of a text ends a word. -/
def IsUnbroken (w : List Char) : Prop := ∀ c ∈ w, (isBlank c || Nesting.isOpening c) = false

/-- Whether a word is unbroken can be decided. -/
instance (w : List Char) : Decidable (IsUnbroken w) := by unfold IsUnbroken; infer_instance

/-- A text has only one first word. -/
lemma eq_of_append_eq (hw : IsUnbroken w) (hK : IsUnbroken K) (hrest : endsWord rest = true)
    (hr : endsWord r = true) (h : w ++ rest = K ++ r) : w = K ∧ rest = r := by
  have hfirst : ∀ {a r : List Char}, IsUnbroken a → endsWord r = true →
      (a ++ r).takeWhile (fun c => !(isBlank c || Nesting.isOpening c)) = a := by
    intro a r ha hr
    rw [List.takeWhile_append_of_pos fun c hc => by simpa using ha c hc]
    cases r with
    | nil => simp
    | cons c r =>
      have hc : isBlank c = true ∨ Nesting.isOpening c = true := by simpa [endsWord] using hr
      rcases hc with hc | hc <;> simp [hc]
  have hwK : w = K := by rw [← hfirst hw hrest, h, hfirst hK hr]
  subst hwK
  exact ⟨rfl, List.append_cancel_left h⟩

/-- A word that is not the keyword does not begin it. -/
lemma beginsWith_eq_false (hw : IsUnbroken w) (hK : IsUnbroken K) (hrest : endsWord rest = true)
    (hne : w ≠ K) : beginsWith K (w ++ rest) = false := by
  rw [Bool.eq_false_iff, ne_eq, beginsWith_iff]
  rintro ⟨r, h, hr⟩
  exact hne (eq_of_append_eq hw hK hrest hr h).1

/-- The word of a keyword is unbroken. -/
lemma isUnbroken_word (k : Keyword) : IsUnbroken k.word.toList := by
  cases k <;> decide

/-- The word of a keyword is a word. -/
lemma isWord_word (k : Keyword) : IsWord k.word.toList := by
  cases k <;> exact .of_forall (by decide) (by decide)

/-- A text is split at a keyword if a search goes past all that is before it. -/
theorem require_eq {k : Keyword} (ha : Passes k.word.toList a (' ' :: (k.word.toList ++ rest)))
    (hrest : endsWord rest = true) :
    require k (a ++ ' ' :: (k.word.toList ++ rest)) = .ok (a ++ [' '], rest) := by
  have hK := isKeyword_word k
  have hbegins : beginsWith k.word.toList (k.word.toList ++ rest) = true :=
    beginsWith_iff.2 ⟨rest, rfl, hrest⟩
  have hplaces : (placesFrom k.word.toList 0 .top true (a ++ ' ' :: (k.word.toList ++ rest))).head? =
      some (a.length + 1) := by
    rw [ha 0, placesFrom_space hK, placesFrom_word hK (isWord_word k), if_pos hbegins, Nat.zero_add]
    rfl
  have hbefore : (a ++ ' ' :: (k.word.toList ++ rest)).take (a.length + 1) = a ++ [' '] := by
    rw [List.take_length_add_append]
    rfl
  have hafter :
      (a ++ ' ' :: (k.word.toList ++ rest)).drop (a.length + 1 + k.word.toList.length) = rest := by
    rw [Nat.add_assoc, List.drop_length_add_append, Nat.add_comm 1, List.drop_succ_cons, List.drop_left]
  rw [require, splitAtWord?, splitAtWordFrom?_eq, hplaces, Option.map_some, hbefore, hafter]

end

end ProvenTables.Sql
