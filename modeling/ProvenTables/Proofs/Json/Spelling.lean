import ProvenTables.Proofs.Json.Grammar

/-!
# Reading spelled values

The reader accepts exactly the texts of the grammar in which at most `maxDepth` containers are nested, and
gives the value that a text stands for (`read?_eq_some_iff`). Both directions are inductions on the fuel of
the reader, which the length of the text bounds.
-/

namespace ProvenTables.Json

open Binary64

variable {cs r rest ws ws' ws'' a b name : List Char} {v : Json} {vs : List Json} {fs : List (String × Json)} {k : String}
  {fuel depth : ℕ}

/-! ## White space -/

/-- Without blanks at the front nothing is skipped. -/
lemma skipSpace_cons {c : Char} (h : isSpace c = false) (t : List Char) :
    skipSpace (c :: t) = c :: t := by
  simp [skipSpace, h]

/-- Blanks before characters are skipped with those at their front. -/
lemma skipSpace_append (h : AllSpace ws) (cs : List Char) : skipSpace (ws ++ cs) = skipSpace cs :=
  List.dropWhile_append_of_pos h

/-- Blanks are skipped up to a character that is none. -/
lemma skipSpace_append_cons {c : Char} (h : AllSpace ws) (hc : isSpace c = false) (cs : List Char) :
    skipSpace (ws ++ c :: cs) = c :: cs := by
  rw [skipSpace_append h, skipSpace_cons hc]

/-- Everything is skipped if and only if everything is blank. -/
lemma skipSpace_eq_nil_iff : skipSpace ws = [] ↔ AllSpace ws := List.dropWhile_eq_nil_iff

/-- What is skipped is blank. -/
lemma exists_skipSpace (cs : List Char) : ∃ ws, cs = ws ++ skipSpace cs ∧ AllSpace ws :=
  ⟨cs.takeWhile isSpace, List.takeWhile_append_dropWhile.symm, fun _ hc => List.mem_takeWhile_imp hc⟩

/-- Characters are the skipped blanks and what is left. -/
lemma exists_of_skipSpace_eq (h : skipSpace cs = r) : ∃ ws, cs = ws ++ r ∧ AllSpace ws :=
  h ▸ exists_skipSpace cs

/-- No characters are blanks only. -/
lemma allSpace_nil : AllSpace [] := nofun

/-- Blanks after blanks are blanks. -/
lemma AllSpace.append (ha : AllSpace a) (hb : AllSpace b) : AllSpace (a ++ b) :=
  fun c hc => (List.mem_append.1 hc).elim (ha c) (hb c)

/-- A number ends before a comma and before the end of a list or an object. -/
lemma numberEnds_cons {c : Char} (h : c = ',' ∨ c = ']' ∨ c = '}') (t : List Char) :
    NumberEnds (c :: t) := by
  intro d hd
  cases hd
  rcases h with rfl | rfl | rfl <;> decide

/-- A number ends before blanks if it ends after them. -/
lemma numberEnds_append (h : AllSpace ws) (hr : NumberEnds r) : NumberEnds (ws ++ r) := by
  cases ws with
  | nil => exact hr
  | cons c ws =>
    intro d hd
    cases hd
    have hc : isSpace c = true := h c List.mem_cons_self
    simp only [isSpace, Bool.or_eq_true, beq_iff_eq] at hc
    rcases hc with ((rfl | rfl) | rfl) | rfl <;> decide

/-! ## Spelled values are read -/

/-- A number begins with a digit or a sign. -/
lemma exists_cons_of_readNumber? {cs : List Char} {p : JsonNumber × List Char}
    (h : readNumber? cs = some p) : ∃ c t, cs = c :: t ∧ (c = '-' ∨ c.isDigit = true) := by
  cases cs with
  | nil => simp [readNumber?, readNumeral?, Binary64.spanDigits, isWhole] at h
  | cons c t =>
    refine ⟨c, t, rfl, ?_⟩
    by_contra! hc
    simp only [readNumber?, readNumeral?] at h
    split at h
    · rename_i heq
      exact hc.1 (List.cons.inj heq).1
    · simp [Binary64.spanDigits, hc.2, isWhole] at h

/-- A numeral does not start with a blank. -/
lemma isSpace_of_numeral {c : Char} (h : c = '-' ∨ c.isDigit = true) : isSpace c = false := by
  rcases h with rfl | h
  · decide
  · simp only [isSpace, Bool.or_eq_false_iff, beq_eq_false_iff_ne]
    refine ⟨⟨⟨?_, ?_⟩, ?_⟩, ?_⟩ <;> (rintro rfl; exact absurd h (by decide))

/-- A spelled value starts with a character that is no blank and ends no list and no object. -/
lemma exists_cons_of_spells (h : Spells v a) :
    ∃ c t, a = c :: t ∧ isSpace c = false ∧ c ≠ ']' ∧ c ≠ '}' := by
  cases h with
  | num hn =>
    have hread := readNumber?_of_spells hn NumberEnds.nil
    rw [List.append_nil] at hread
    obtain ⟨c, t, ht, hc⟩ := exists_cons_of_readNumber? hread
    refine ⟨c, t, ht, isSpace_of_numeral hc, ?_, ?_⟩ <;>
      (rintro rfl; rcases hc with hc | hc <;> exact absurd hc (by decide))
  | _ => exact ⟨_, _, rfl, by decide, by decide, by decide⟩

/-- A number ends where further items are spelled. -/
lemma numberEnds_of_spellsItems (h : SpellsItems vs b) (r : List Char) : NumberEnds (b ++ r) := by
  cases h with
  | nil hws =>
    rw [List.append_assoc]
    exact numberEnds_append hws (numberEnds_cons (.inr (.inl rfl)) _)
  | cons hws =>
    rw [List.append_assoc]
    exact numberEnds_append hws (numberEnds_cons (.inl rfl) _)

/-- A number ends where further fields are spelled. -/
lemma numberEnds_of_spellsFields (h : SpellsFields fs b) (r : List Char) : NumberEnds (b ++ r) := by
  cases h with
  | nil hws =>
    rw [List.append_assoc]
    exact numberEnds_append hws (numberEnds_cons (.inr (.inr rfl)) _)
  | cons hws =>
    rw [List.append_assoc]
    exact numberEnds_append hws (numberEnds_cons (.inl rfl) _)

/-- A name that is spelled is read. -/
lemma readName?_of_spells (h : SpellsName k name) (hws : AllSpace ws) (r : List Char) :
    readName? (ws ++ (name ++ r)) = some (k, r) := by
  cases h with
  | @mk as ws' hk hws' =>
    have hstring := readString?_of_spells hk (ws' ++ ':' :: r)
    have htext : ws ++ ('"' :: (as ++ '"' :: (ws' ++ [':'])) ++ r) =
        ws ++ '"' :: (as ++ '"' :: (ws' ++ ':' :: r)) := by simp
    rw [htext, readName?, skipSpace_append_cons hws (by decide)]
    simp [hstring, skipSpace_append_cons hws' (c := ':') (by decide)]

/-- A number is read as a value. -/
lemma readValue?_of_readNumber? {n : JsonNumber} (hws : AllSpace ws) (h : readNumber? cs = some (n, r)) :
    readValue? (fuel + 1) depth (ws ++ cs) = some (num n, r) := by
  obtain ⟨c, t, rfl, hc⟩ := exists_cons_of_readNumber? h
  have hne : ∀ d, d ≠ '-' → d.isDigit = false → c ≠ d := by
    rintro d h1 h2 rfl
    rcases hc with hc | hc
    · exact h1 hc
    · exact absurd hc (by simp [h2])
  rw [readValue?, skipSpace_append_cons hws (isSpace_of_numeral hc)]
  split
  any_goals
    rename_i heq
    exact absurd (List.cons.inj heq).1 (hne _ (by decide) (by decide))
  rw [h]
  rfl

/-- An empty list is read. -/
lemma readValue?_emptyArr (hws : AllSpace ws) (hws' : AllSpace ws')
    (hdepth : (arr []).depth ≤ depth) (r : List Char) :
    readValue? (fuel + 1) depth (ws ++ ('[' :: (ws' ++ [']']) ++ r)) = some (arr [], r) := by
  simp only [Json.depth] at hdepth
  obtain ⟨depth, rfl⟩ : ∃ d, depth = d + 1 := ⟨depth - 1, by omega⟩
  rw [readValue?, List.cons_append, skipSpace_append_cons hws (by decide)]
  simp [skipSpace_append_cons hws' (c := ']') (by decide)]

/-- An empty object is read. -/
lemma readValue?_emptyObj (hws : AllSpace ws) (hws' : AllSpace ws')
    (hdepth : (obj []).depth ≤ depth) (r : List Char) :
    readValue? (fuel + 1) depth (ws ++ ('{' :: (ws' ++ ['}']) ++ r)) = some (obj [], r) := by
  simp only [Json.depth] at hdepth
  obtain ⟨depth, rfl⟩ : ∃ d, depth = d + 1 := ⟨depth - 1, by omega⟩
  rw [readValue?, List.cons_append, skipSpace_append_cons hws (by decide)]
  simp [skipSpace_append_cons hws' (c := '}') (by decide)]

/-- What is spelled is read with the given fuel, if it is no longer than that. -/
structure ReadsSpelled (fuel : ℕ) : Prop where
  value : ∀ {v a ws r depth}, Spells v a → AllSpace ws → v.depth ≤ depth → a.length ≤ fuel → NumberEnds r →
    readValue? fuel depth (ws ++ (a ++ r)) = some (v, r)
  items : ∀ {vs b depth}, SpellsItems vs b → depthOfItems vs ≤ depth → b.length ≤ fuel → ∀ r,
    readItems? fuel depth (b ++ r) = some (vs, r)
  fields : ∀ {fs b depth}, SpellsFields fs b → depthOfFields fs ≤ depth → b.length ≤ fuel → ∀ r,
    readFields? fuel depth (b ++ r) = some (fs, r)

/-- A list is read if everything in it is read with less fuel. -/
lemma ReadsSpelled.array (h : ReadsSpelled fuel) (hws : AllSpace ws) (hws' : AllSpace ws') (hv : Spells v a)
    (hvs : SpellsItems vs b) (hdepth : (arr (v :: vs)).depth ≤ depth)
    (hfuel : ws'.length + (a.length + b.length) ≤ fuel) (r : List Char) :
    readValue? (fuel + 1) depth (ws ++ ('[' :: (ws' ++ (a ++ b)) ++ r)) = some (arr (v :: vs), r) := by
  simp only [Json.depth, depthOfItems] at hdepth
  obtain ⟨depth, rfl⟩ : ∃ d, depth = d + 1 := ⟨depth - 1, by omega⟩
  have hfirst : readValue? fuel depth ([] ++ (a ++ (b ++ r))) = some (v, b ++ r) :=
    h.value hv allSpace_nil (by omega) (by omega) (numberEnds_of_spellsItems hvs r)
  have hrest : readItems? fuel depth (b ++ r) = some (vs, r) := h.items hvs (by omega) (by omega) r
  -- the first item does not close the array
  obtain ⟨c, t, rfl, hc, hc', -⟩ := exists_cons_of_spells hv
  rw [readValue?, List.cons_append, skipSpace_append_cons hws (by decide)]
  simp only [List.nil_append, List.cons_append] at hfirst
  simp only [List.append_assoc, List.cons_append, skipSpace_append_cons hws' hc]
  split
  · rename_i heq
    exact absurd (List.cons.inj heq).1 hc'
  · simp [hfirst, hrest]

/-- An object is read if everything in it is read with less fuel. -/
lemma ReadsSpelled.object (h : ReadsSpelled fuel) (hws : AllSpace ws) (hws' : AllSpace ws')
    (hname : SpellsName k name) (hws'' : AllSpace ws'') (hv : Spells v a) (hfs : SpellsFields fs b)
    (hdepth : (obj ((k, v) :: fs)).depth ≤ depth)
    (hfuel : ws'.length + (name.length + (ws''.length + (a.length + b.length))) ≤ fuel) (r : List Char) :
    readValue? (fuel + 1) depth (ws ++ ('{' :: (ws' ++ (name ++ (ws'' ++ (a ++ b)))) ++ r)) =
      some (obj ((k, v) :: fs), r) := by
  simp only [Json.depth, depthOfFields] at hdepth
  obtain ⟨depth, rfl⟩ : ∃ d, depth = d + 1 := ⟨depth - 1, by omega⟩
  have hread := readName?_of_spells hname allSpace_nil (ws'' ++ (a ++ (b ++ r)))
  have hfirst : readValue? fuel depth (ws'' ++ (a ++ (b ++ r))) = some (v, b ++ r) :=
    h.value hv hws'' (by omega) (by omega) (numberEnds_of_spellsFields hfs r)
  have hrest : readFields? fuel depth (b ++ r) = some (fs, r) := h.fields hfs (by omega) (by omega) r
  obtain ⟨t, rfl⟩ : ∃ t, name = '"' :: t := by
    cases hname
    exact ⟨_, rfl⟩
  rw [readValue?, List.cons_append, skipSpace_append_cons hws (by decide)]
  simp only [List.nil_append, List.cons_append] at hread
  simp only [List.append_assoc, List.cons_append, skipSpace_append_cons hws' (c := '"') (by decide)]
  simp [hread, hfirst, hrest]

/-- With one more step every value that is spelled is read. -/
lemma ReadsSpelled.value_succ (h : ReadsSpelled fuel) (hv : Spells v a) (hws : AllSpace ws)
    (hdepth : v.depth ≤ depth) (hfuel : a.length ≤ fuel + 1) (hr : NumberEnds r) :
    readValue? (fuel + 1) depth (ws ++ (a ++ r)) = some (v, r) := by
  cases hv with
  | null | true | false =>
    rw [readValue?, List.cons_append, skipSpace_append_cons hws (by decide)]
    rfl
  | num hn => exact readValue?_of_readNumber? hws (readNumber?_of_spells hn hr)
  | @str s as hs =>
    have hstring := readString?_of_spells hs r
    rw [readValue?, List.cons_append, skipSpace_append_cons hws (by decide)]
    simp [hstring]
  | emptyArr hws' => exact readValue?_emptyArr hws hws' hdepth r
  | arr hws' hv hvs => exact h.array hws hws' hv hvs hdepth (by simpa using hfuel) r
  | emptyObj hws' => exact readValue?_emptyObj hws hws' hdepth r
  | obj hws' hname hws'' hv hfs => exact h.object hws hws' hname hws'' hv hfs hdepth (by simpa using hfuel) r

/-- With one more step all items that are spelled are read. -/
lemma ReadsSpelled.items_succ (h : ReadsSpelled fuel) (hvs : SpellsItems vs b)
    (hdepth : depthOfItems vs ≤ depth) (hfuel : b.length ≤ fuel + 1) (r : List Char) :
    readItems? (fuel + 1) depth (b ++ r) = some (vs, r) := by
  cases hvs with
  | nil hws =>
    rw [readItems?, List.append_assoc, List.singleton_append, skipSpace_append_cons hws (by decide)]
    rfl
  | @cons v vs ws ws' a b hws hws' hv hvs =>
    simp only [depthOfItems] at hdepth
    simp only [List.length_cons, List.length_append] at hfuel
    have hfirst : readValue? fuel depth (ws' ++ (a ++ (b ++ r))) = some (v, b ++ r) :=
      h.value hv hws' (by omega) (by omega) (numberEnds_of_spellsItems hvs r)
    have hrest : readItems? fuel depth (b ++ r) = some (vs, r) := h.items hvs (by omega) (by omega) r
    rw [readItems?, List.append_assoc, List.cons_append, skipSpace_append_cons hws (by decide)]
    simp [hfirst, hrest]

/-- With one more step all fields that are spelled are read. -/
lemma ReadsSpelled.fields_succ (h : ReadsSpelled fuel) (hfs : SpellsFields fs b)
    (hdepth : depthOfFields fs ≤ depth) (hfuel : b.length ≤ fuel + 1) (r : List Char) :
    readFields? (fuel + 1) depth (b ++ r) = some (fs, r) := by
  cases hfs with
  | nil hws =>
    rw [readFields?, List.append_assoc, List.singleton_append, skipSpace_append_cons hws (by decide)]
    rfl
  | @cons k v fs ws ws' ws'' name a b hws hws' hname hws'' hv hfs =>
    simp only [depthOfFields] at hdepth
    simp only [List.length_cons, List.length_append] at hfuel
    have hread := readName?_of_spells hname hws' (ws'' ++ (a ++ (b ++ r)))
    have hfirst : readValue? fuel depth (ws'' ++ (a ++ (b ++ r))) = some (v, b ++ r) :=
      h.value hv hws'' (by omega) (by omega) (numberEnds_of_spellsFields hfs r)
    have hrest : readFields? fuel depth (b ++ r) = some (fs, r) := h.fields hfs (by omega) (by omega) r
    rw [readFields?, List.append_assoc, List.cons_append, skipSpace_append_cons hws (by decide)]
    simp [hread, hfirst, hrest]

/-- With enough fuel everything that is spelled is read. -/
lemma readsSpelled (fuel : ℕ) : ReadsSpelled fuel := by
  induction fuel with
  | zero =>
    -- no text of the grammar is empty
    refine ⟨fun hv _ _ hfuel _ => ?_, fun hvs _ hfuel => ?_, fun hfs _ hfuel => ?_⟩
    · obtain ⟨c, t, rfl, -⟩ := exists_cons_of_spells hv
      simp at hfuel
    · cases hvs <;> simp at hfuel
    · cases hfs <;> simp at hfuel
  | succ fuel ih => exact ⟨ih.value_succ, ih.items_succ, ih.fields_succ⟩

/-! ## What is read is spelled -/

/-- What is read with the given fuel is spelled by the text that is passed over. -/
structure GivesSpelled (fuel : ℕ) : Prop where
  value : ∀ {depth cs v r}, readValue? fuel depth cs = some (v, r) →
    ∃ ws a, cs = ws ++ (a ++ r) ∧ AllSpace ws ∧ Spells v a ∧ v.depth ≤ depth
  items : ∀ {depth cs vs r}, readItems? fuel depth cs = some (vs, r) →
    ∃ b, cs = b ++ r ∧ SpellsItems vs b ∧ depthOfItems vs ≤ depth
  fields : ∀ {depth cs fs r}, readFields? fuel depth cs = some (fs, r) →
    ∃ b, cs = b ++ r ∧ SpellsFields fs b ∧ depthOfFields fs ≤ depth

/-- A name that is read has been spelled. -/
lemma spells_of_readName? (h : readName? cs = some (k, r)) :
    ∃ ws name, cs = ws ++ (name ++ r) ∧ AllSpace ws ∧ SpellsName k name := by
  unfold readName? at h
  split at h
  · rename_i rest hskip
    obtain ⟨⟨as, rest'⟩, hstring, h⟩ := Option.bind_eq_some_iff.1 h
    simp only at h
    split at h
    · rename_i rest'' hskip'
      cases h
      obtain ⟨ws, rfl, hws⟩ := exists_of_skipSpace_eq hskip
      obtain ⟨ws', rfl, hws'⟩ := exists_of_skipSpace_eq hskip'
      obtain ⟨a, rfl, ha⟩ := spells_of_readString? hstring
      exact ⟨ws, '"' :: (a ++ '"' :: (ws' ++ [':'])), by simp, hws, .mk (by simpa using ha) hws'⟩
    · cases h
  · cases h

/-- A list that is read has been spelled if everything in it has. -/
lemma GivesSpelled.array (h : GivesSpelled fuel) (hopen : skipSpace cs = '[' :: rest)
    (hv : readValue? (fuel + 1) depth cs = some (v, r)) :
    ∃ a, '[' :: rest = a ++ r ∧ Spells v a ∧ v.depth ≤ depth := by
  rw [readValue?, hopen] at hv
  cases depth with
  | zero => cases hv
  | succ depth =>
    obtain ⟨ws', hrest, hws'⟩ := exists_skipSpace rest
    simp only at hv
    split at hv
    · rename_i rest' heq'
      cases hv
      refine ⟨'[' :: (ws' ++ [']']), ?_, .emptyArr hws', by simp [Json.depth, depthOfItems]⟩
      rw [hrest, heq']
      simp
    · obtain ⟨⟨v, r₁⟩, hv₁, hv⟩ := Option.bind_eq_some_iff.1 hv
      obtain ⟨⟨vs, r₂⟩, hvs, hv⟩ := Option.bind_eq_some_iff.1 hv
      cases hv
      obtain ⟨ws'', a, hsplit, hws'', ha, hdepth⟩ := h.value hv₁
      obtain ⟨b, rfl, hb, hdepth'⟩ := h.items hvs
      refine ⟨'[' :: ((ws' ++ ws'') ++ (a ++ b)), ?_, .arr (hws'.append hws'') ha hb, ?_⟩
      · rw [hrest, hsplit]
        simp
      · simp only [Json.depth, depthOfItems]
        omega

/-- An object that is read has been spelled if everything in it has. -/
lemma GivesSpelled.object (h : GivesSpelled fuel) (hopen : skipSpace cs = '{' :: rest)
    (hv : readValue? (fuel + 1) depth cs = some (v, r)) :
    ∃ a, '{' :: rest = a ++ r ∧ Spells v a ∧ v.depth ≤ depth := by
  rw [readValue?, hopen] at hv
  cases depth with
  | zero => cases hv
  | succ depth =>
    obtain ⟨ws', hrest, hws'⟩ := exists_skipSpace rest
    simp only at hv
    split at hv
    · rename_i rest' heq'
      cases hv
      refine ⟨'{' :: (ws' ++ ['}']), ?_, .emptyObj hws', by simp [Json.depth, depthOfFields]⟩
      rw [hrest, heq']
      simp
    · obtain ⟨⟨k, r₀⟩, hname, hv⟩ := Option.bind_eq_some_iff.1 hv
      obtain ⟨⟨v, r₁⟩, hv₁, hv⟩ := Option.bind_eq_some_iff.1 hv
      obtain ⟨⟨fs, r₂⟩, hfs, hv⟩ := Option.bind_eq_some_iff.1 hv
      cases hv
      obtain ⟨ws'', name, hsplit, hws'', hk⟩ := spells_of_readName? hname
      obtain ⟨ws₁, a, rfl, hws₁, ha, hdepth⟩ := h.value hv₁
      obtain ⟨b, rfl, hb, hdepth'⟩ := h.fields hfs
      refine ⟨'{' :: ((ws' ++ ws'') ++ (name ++ (ws₁ ++ (a ++ b)))), ?_,
        .obj (hws'.append hws'') hk hws₁ ha hb, ?_⟩
      · rw [hrest, hsplit]
        simp
      · simp only [Json.depth, depthOfFields]
        omega

/-- With one more step every value that is read has been spelled. -/
lemma GivesSpelled.value_succ (h : GivesSpelled fuel) (hv : readValue? (fuel + 1) depth cs = some (v, r)) :
    ∃ ws a, cs = ws ++ (a ++ r) ∧ AllSpace ws ∧ Spells v a ∧ v.depth ≤ depth := by
  obtain ⟨ws, hcs, hws⟩ := exists_skipSpace cs
  suffices hspells : ∃ a, skipSpace cs = a ++ r ∧ Spells v a ∧ v.depth ≤ depth by
    obtain ⟨a, ha, hspells⟩ := hspells
    exact ⟨ws, a, by rw [← ha, ← hcs], hws, hspells⟩
  have hread := hv
  rw [readValue?] at hv
  -- the character after the space tells which kind of value is read
  split at hv
  · rename_i heq
    cases hv
    exact ⟨_, heq, .null, Nat.zero_le _⟩
  · rename_i heq
    cases hv
    exact ⟨_, heq, .true, Nat.zero_le _⟩
  · rename_i heq
    cases hv
    exact ⟨_, heq, .false, Nat.zero_le _⟩
  · rename_i rest heq
    obtain ⟨⟨as, rest⟩, hstring, hp⟩ := Option.map_eq_some_iff.1 hv
    cases hp
    obtain ⟨a, rfl, ha⟩ := spells_of_readString? hstring
    exact ⟨'"' :: (a ++ ['"']), by simp [heq], .str (by simpa using ha), Nat.zero_le _⟩
  · rename_i rest heq
    rw [heq]
    exact h.array heq hread
  · rename_i rest heq
    rw [heq]
    exact h.object heq hread
  · rename_i heq
    obtain ⟨⟨n, r⟩, hn, hp⟩ := Option.map_eq_some_iff.1 hv
    cases hp
    obtain ⟨a, ha, hspells⟩ := spells_of_readNumber? hn
    exact ⟨a, ha, .num hspells, Nat.zero_le _⟩

/-- With one more step all items that are read have been spelled. -/
lemma GivesSpelled.items_succ (h : GivesSpelled fuel) (hvs : readItems? (fuel + 1) depth cs = some (vs, r)) :
    ∃ b, cs = b ++ r ∧ SpellsItems vs b ∧ depthOfItems vs ≤ depth := by
  rw [readItems?] at hvs
  split at hvs
  · rename_i rest heq
    cases hvs
    obtain ⟨ws, rfl, hws⟩ := exists_of_skipSpace_eq heq
    exact ⟨ws ++ [']'], by simp, .nil hws, Nat.zero_le _⟩
  · rename_i rest heq
    obtain ⟨⟨v, r₁⟩, hv, hvs⟩ := Option.bind_eq_some_iff.1 hvs
    obtain ⟨⟨vs, r₂⟩, hrest, hvs⟩ := Option.bind_eq_some_iff.1 hvs
    cases hvs
    obtain ⟨ws, rfl, hws⟩ := exists_of_skipSpace_eq heq
    obtain ⟨ws', a, rfl, hws', ha, hdepth⟩ := h.value hv
    obtain ⟨b, rfl, hb, hdepth'⟩ := h.items hrest
    refine ⟨ws ++ ',' :: (ws' ++ (a ++ b)), by simp, .cons hws hws' ha hb, ?_⟩
    simp only [depthOfItems]
    omega
  · cases hvs

/-- With one more step all fields that are read have been spelled. -/
lemma GivesSpelled.fields_succ (h : GivesSpelled fuel)
    (hfs : readFields? (fuel + 1) depth cs = some (fs, r)) :
    ∃ b, cs = b ++ r ∧ SpellsFields fs b ∧ depthOfFields fs ≤ depth := by
  rw [readFields?] at hfs
  split at hfs
  · rename_i rest heq
    cases hfs
    obtain ⟨ws, rfl, hws⟩ := exists_of_skipSpace_eq heq
    exact ⟨ws ++ ['}'], by simp, .nil hws, Nat.zero_le _⟩
  · rename_i rest heq
    obtain ⟨⟨k, r₀⟩, hname, hfs⟩ := Option.bind_eq_some_iff.1 hfs
    obtain ⟨⟨v, r₁⟩, hv, hfs⟩ := Option.bind_eq_some_iff.1 hfs
    obtain ⟨⟨fs, r₂⟩, hrest, hfs⟩ := Option.bind_eq_some_iff.1 hfs
    cases hfs
    obtain ⟨ws, rfl, hws⟩ := exists_of_skipSpace_eq heq
    obtain ⟨ws', name, rfl, hws', hk⟩ := spells_of_readName? hname
    obtain ⟨ws'', a, rfl, hws'', ha, hdepth⟩ := h.value hv
    obtain ⟨b, rfl, hb, hdepth'⟩ := h.fields hrest
    refine ⟨ws ++ ',' :: (ws' ++ (name ++ (ws'' ++ (a ++ b)))), by simp, .cons hws hws' hk hws'' ha hb, ?_⟩
    simp only [depthOfFields]
    omega
  · cases hfs

/-- With any fuel everything that is read has been spelled. -/
lemma givesSpelled (fuel : ℕ) : GivesSpelled fuel := by
  induction fuel with
  | zero => exact ⟨nofun, nofun, nofun⟩
  | succ fuel ih => exact ⟨ih.value_succ, ih.items_succ, ih.fields_succ⟩

/-! ## Texts -/

/-- A text is read as a value exactly if it spells the value and the value is not nested too deep. -/
theorem read?_eq_some_iff {s : String} {v : Json} : read? s = some v ↔ IsSpelled v s ∧ v.depth ≤ maxDepth := by
  constructor
  · intro h
    simp only [read?] at h
    split at h
    · rename_i w r hread
      split at h
      · rename_i hend
        cases h
        obtain ⟨ws, a, hs, hws, ha, hdepth⟩ := (givesSpelled _).value hread
        exact ⟨⟨ws, a, r, hs, hws, ha, skipSpace_eq_nil_iff.1 (List.isEmpty_iff.1 hend)⟩, hdepth⟩
      · cases h
    · cases h
  · rintro ⟨⟨ws, a, ws', hs, hws, ha, hws'⟩, hdepth⟩
    have hends : NumberEnds ws' := by simpa using numberEnds_append hws' NumberEnds.nil
    have hread : readValue? (s.toList.length + 1) maxDepth s.toList = some (v, ws') := by
      have hfuel : a.length ≤ s.toList.length + 1 := by
        simp only [hs, List.length_append]
        omega
      have hvalue := (readsSpelled (s.toList.length + 1)).value ha hws hdepth hfuel hends
      rwa [← hs] at hvalue
    simp [read?, hread, skipSpace_eq_nil_iff.2 hws']

end ProvenTables.Json
