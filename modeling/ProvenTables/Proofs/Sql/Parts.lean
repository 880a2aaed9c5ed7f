import Mathlib
import ProvenTables.Proofs.Sql.Brackets
import ProvenTables.Proofs.Sql.Lists

/-!
# The marks of the parts of statements

What the parser cuts a text into makes up the text again, so a text has the marks of its parts. A part that
is taken for a name or a number has none, a type or a vector at most those of one pair of square brackets,
and a list in parentheses those of its content between the parentheses (`marks_soleGroup`). A text of
groups leaves nothing open, but a closing bracket of either kind ends a group (`isNested_of_groups`).
-/

namespace ProvenTables.Sql

open Text

variable {cs r : List Char} {sep : Char}

/-! ## Cuts -/

/-- The parts with the separator between them are the text. -/
lemma intercalate_cutAt (sep : Char) (s : Nesting) (cs : List Char) :
    [sep].intercalate (cutAt sep s cs) = cs := by
  induction cs generalizing s with
  | nil => rfl
  | cons c cs ih =>
    obtain ⟨part, parts, hcut⟩ := List.exists_cons_of_ne_nil (cutAt_ne_nil sep (s.next c) cs)
    have hrest : [sep].intercalate (part :: parts) = cs := hcut ▸ ih (s.next c)
    by_cases hsep : (s.isTop c && c == sep) = true
    · have hc : c = sep := by simpa using (Bool.and_eq_true_iff.1 hsep).2
      rw [cutAt, if_pos hsep, hcut, List.intercalate_cons_cons, hrest, hc]
      rfl
    · rw [cutAt_cons (Bool.eq_false_iff.2 hsep), hcut, List.modifyHead_cons]
      cases parts with
      | nil => rw [← hrest, List.intercalate_singleton, List.intercalate_singleton]
      | cons q parts =>
        rw [List.intercalate_cons_cons] at hrest ⊢
        rw [← hrest]
        rfl

/-- The marks of a text are those of its parts. -/
lemma marks_splitTop (hsep : IsPlain sep) (cs : List Char) : (splitTop sep cs).flatMap marks = marks cs := by
  have hparts : ∀ parts, marks ([sep].intercalate parts) = parts.flatMap marks := by
    intro parts
    induction parts with
    | nil => rfl
    | cons p parts ih =>
      cases parts with
      | nil => simp
      | cons q parts =>
        rw [List.intercalate_cons_cons, marks_append, marks_append, ih, marks_cons_of_isPlain hsep]
        simp
  simp only [splitTop, List.flatMap_map, marks_trim]
  exact (hparts _).symm.trans (congrArg marks (intercalate_cutAt sep .top cs))

/-- The parts have the quotes and brackets of the text. -/
lemma marks_splitBy {p : Char → Bool} (hp : ∀ c, p c = true → IsPlain c) (cs : List Char) :
    (splitBy p cs).flatMap marks = marks cs := by
  induction cs with
  | nil => rfl
  | cons c cs ih =>
    rw [splitBy]
    split
    · rename_i hc
      rw [List.flatMap_cons, ih, marks_cons_of_isPlain (hp c hc)]
      rfl
    · obtain ⟨part, parts, hsplit⟩ := List.exists_cons_of_ne_nil (splitBy_ne_nil p cs)
      rw [hsplit] at ih ⊢
      rw [← List.singleton_append (l := cs), marks_append, ← ih, List.flatMap_cons, List.flatMap_cons,
        ← List.singleton_append (l := part), marks_append, List.append_assoc]

/-! ## Names and types -/

/-- Characters of identifiers are no quotes and brackets. -/
lemma marks_eq_nil_of_isBareChar (h : ∀ c ∈ cs, isBareChar c = true) : marks cs = [] :=
  marks_eq_nil.2 fun c hc => isPlain_of_isBareChar (h c hc)

/-- An identifier that is read has no quotes and brackets. -/
lemma marks_identifier {name : String} (h : identifier cs = .ok name) : marks cs = [] := by
  simp only [identifier] at h
  split at h
  · rename_i hname
    have hbare : ∀ c ∈ trim cs, isBareChar c = true := by
      simpa using List.all_eq_true.1 (isBare_of_isIdentifier hname).2
    rw [← marks_trim, marks_eq_nil_of_isBareChar hbare]
  · cases h

/-- Identifiers that are read have no quotes and brackets. -/
lemma marks_identifiers {names : List String} (h : (splitTop ',' cs).mapM identifier = .ok names) :
    marks cs = [] := by
  have hcomma : IsPlain ',' := by decide
  rw [← marks_splitTop hcomma, List.flatMap_eq_nil_iff]
  intro part hpart
  obtain ⟨name, -, hname⟩ := (exists_of_mapM_ok h).1 part hpart
  exact marks_identifier hname

/-- The small letter of a capital is small. -/
lemma isLower_toLower {c : Char} (h : c.isUpper = true) : c.toLower.isLower = true := by
  have hc : 65 ≤ c.toNat ∧ c.toNat ≤ 90 := by simpa [Char.isUpper, UInt32.le_iff_toNat_le] using h
  have hlower : c.toLower.toNat = c.toNat + 32 := by
    rw [Char.toLower, dif_pos (by simpa [Char.isUpper] using h)]
    change (c.val + 32).toNat = _
    rw [UInt32.toNat_add, Char.toNat_val]
    exact Nat.mod_eq_of_lt (by simp; omega)
  simp [Char.isLower, UInt32.le_iff_toNat_le, hlower]
  omega

/-- Marks have no case. -/
lemma marks_map_toLower (cs : List Char) : marks (cs.map Char.toLower) = marks cs := by
  have hchar : ∀ c : Char, marks [c.toLower] = marks [c] := by
    intro c
    by_cases hc : c.isUpper = true
    · have hbare : isBareChar c.toLower = true ∧ isBareChar c = true := by
        simp [isBareChar, Char.isAlphanum, Char.isAlpha, isLower_toLower hc, hc]
      rw [marks_eq_nil_of_isBareChar (List.forall_mem_singleton.2 hbare.1),
        marks_eq_nil_of_isBareChar (List.forall_mem_singleton.2 hbare.2)]
    · rw [show c.toLower = c from dif_neg fun h => hc (decide_eq_true h)]
  induction cs with
  | nil => rfl
  | cons c cs ih =>
    rw [List.map_cons, ← List.singleton_append, marks_append, hchar, ih, ← marks_append,
      List.singleton_append]

/-- The spelling of a type is flat. -/
lemma isFlat_of_ofSpelling? {s : String} {t : ColumnType} (h : ColumnType.ofSpelling? s = some t) :
    IsFlat s.toList := by
  have hspelling : asciiLower (trimmed s) ∈ t.spellings := by
    simpa only [decide_eq_true_eq] using List.find?_some h
  have hmarks : marks (asciiLower (trimmed s)).toList = marks s.toList := by
    rw [asciiLower, String.toList_ofList, marks_map_toLower, trimmed, String.toList_ofList, marks_trim]
  have hall : ∀ w ∈ t.spellings, IsFlat w.toList := by cases t <;> decide
  rw [IsFlat, ← hmarks]
  exact hall _ hspelling

/-- A definition that is read is flat. -/
lemma isFlat_of_definition {earlier : List Column} {c : Column} (h : definition earlier cs = .ok c) :
    IsFlat cs := by
  have hmarks := marks_splitBy (p := (· == ' ')) (by simp; decide) cs
  simp only [definition] at h
  split at h
  · rename_i name type hparts
    rw [hparts] at hmarks
    obtain ⟨n, hn, h⟩ := bind_eq_ok_iff.1 h
    split at h
    · cases h
    · rename_i t ht
      have hflat := isFlat_of_ofSpelling? ht
      rw [String.toList_ofList, IsFlat] at hflat
      simpa [IsFlat, ← hmarks, marks_identifier hn] using hflat
  · cases h

/-! ## Numbers -/

section

variable {negative : Bool} {x : Binary64} {e : ℤ} {n : ℕ}

/-- Digits are no quotes and brackets. -/
lemma marks_eq_nil_of_isDigit (h : ∀ c ∈ cs, c.isDigit = true) : marks cs = [] :=
  marks_eq_nil_of_isBareChar fun c hc => by simp [isBareChar, Char.isAlphanum, h c hc]

/-- A natural number that is read has no quotes and brackets. -/
lemma marks_readNat? (h : readNat? cs = some n) : marks cs = [] := by
  rw [readNat?] at h
  split at h
  · rename_i hdigits
    exact marks_eq_nil_of_isDigit (List.all_eq_true.1 hdigits.2)
  · cases h

/-- A number without a sign that is read has no quotes and brackets. -/
lemma marks_readUnsigned? (h : readUnsigned? cs = some n) : marks cs = [] := by
  unfold readUnsigned? at h
  split at h
  · rw [marks_cons_of_isPlain (by decide), marks_readNat? h]
  · exact marks_readNat? h

/-- An integer that is read has no quotes and brackets. -/
lemma marks_readInt? (h : readInt? cs = some e) : marks cs = [] := by
  have hdigits : ∀ {cs}, readNat? cs ≠ none → marks cs = [] := by
    intro cs hne
    obtain ⟨n, hn⟩ := Option.ne_none_iff_exists'.1 hne
    exact marks_readNat? hn
  unfold readInt? at h
  split at h
  · rw [marks_cons_of_isPlain (by decide)]
    exact hdigits fun hread => by simp [hread] at h
  · rw [marks_cons_of_isPlain (by decide)]
    exact hdigits fun hread => by simp [hread] at h
  · exact hdigits fun hread => by simp [hread] at h

/-- An exponent that is read has no quotes and brackets. -/
lemma marks_readExponent? (h : Binary64.readExponent? cs = some e) : marks cs = [] := by
  cases cs with
  | nil => rfl
  | cons c cs =>
    rw [Binary64.readExponent?] at h
    split at h
    · rename_i hc
      have hplain : IsPlain c := by rcases hc with rfl | rfl <;> decide
      rw [marks_cons_of_isPlain hplain, marks_readInt? h]
    · cases h

/-- What follows the digits has all quotes and brackets. -/
lemma marks_spanDigits (cs : List Char) : marks (Binary64.spanDigits cs).2 = marks cs :=
  marks_dropWhile (fun c hc => isPlain_of_isBareChar (by simp [isBareChar, Char.isAlphanum, hc])) cs

/-- A decimal that is read has no quotes and brackets. -/
lemma marks_readDecimal? (h : Binary64.readUnsigned? negative cs = some x) : marks cs = [] := by
  have hexponent : ∀ {b : Bool} {r} {f : ℤ → Binary64},
      (if b then none else (Binary64.readExponent? r).map f) = some x → marks r = [] := by
    intro b r f h
    split at h
    · cases h
    · obtain ⟨e, he, -⟩ := Option.map_eq_some_iff.1 h
      exact marks_readExponent? he
  rw [← marks_spanDigits]
  simp only [Binary64.readUnsigned?] at h
  split at h
  · rename_i r hr
    rw [hr, marks_cons_of_isPlain (by decide), ← marks_spanDigits, hexponent h]
  · exact hexponent h

/-- A magnitude that is read has no quotes and brackets. -/
lemma marks_readMagnitude? (h : Binary64.readMagnitude? negative cs = some x) : marks cs = [] := by
  have hword : ∀ w : String, marks w.toList = [] → String.ofList (cs.map Char.toLower) = w →
      marks cs = [] := by
    rintro w hw rfl
    rwa [String.toList_ofList, marks_map_toLower] at hw
  simp only [Binary64.readMagnitude?] at h
  split at h
  · rename_i hinfinity
    rcases hinfinity with hinfinity | hinfinity
    · exact hword _ (by decide) hinfinity
    · exact hword _ (by decide) hinfinity
  · split at h
    · rename_i hnan
      exact hword _ (by decide) hnan
    · exact marks_readDecimal? h

/-- A finite number that is read has no quotes and brackets. -/
lemma marks_readFinite? (h : Binary64.readFinite? cs = some x) : marks cs = [] := by
  obtain ⟨hread, -⟩ := Option.filter_eq_some_iff.1 h
  unfold Binary64.read? at hread
  split at hread
  · rw [marks_cons_of_isPlain (by decide), marks_readMagnitude? hread]
  · rw [marks_cons_of_isPlain (by decide), marks_readMagnitude? hread]
  · exact marks_readMagnitude? hread

/-- A limit that is read has no quotes and brackets. -/
lemma marks_parseLimit (h : parseLimit cs = .ok n) : marks cs = [] := by
  rw [parseLimit] at h
  split at h
  · rename_i m hm
    exact marks_readUnsigned? (Option.filter_eq_some_iff.1 hm).1
  · cases h

/-- A vector that is read has one pair of brackets. -/
lemma marks_readVector {v : List Binary64} (h : readVector cs = .ok v) : marks cs = ['[', ']'] := by
  have hinside : ∀ {cs inner}, insideBrackets? cs = some inner → cs = '[' :: (inner ++ [']']) := by
    intro cs inner h
    unfold insideBrackets? at h
    split at h
    · rename_i r
      split at h
      · rename_i inner' hr
        cases h
        rw [← List.reverse_cons, ← hr, List.reverse_reverse]
      · cases h
    · cases h
  simp only [readVector] at h
  split at h
  · cases h
  · rename_i inner hinner
    -- the components are numerals, which hold no mark, so only the two brackets are left
    have hplain : marks inner = [] := by
      split at h
      · rename_i hempty
        rw [← marks_trim, List.isEmpty_iff.1 hempty]
        rfl
      · rw [← marks_splitBy (p := (· == ',')) (by simp; decide), List.flatMap_eq_nil_iff]
        intro item hitem
        obtain ⟨x, -, hx⟩ := (exists_of_mapM_ok h).1 item hitem
        simp only [readComponent] at hx
        split at hx
        · rename_i y hy
          rw [← marks_trim, marks_readFinite? hy]
        · cases hx
    rw [← marks_trim, hinside hinner, marks_cons_of_not_isPlain (by decide), marks_append, hplain]
    rfl

end

/-! ## Groups -/

/-- Whether a reader of groups has passed what is open. -/
def GroupState.Reads : GroupState → Open → Prop
  | .between _, o => o = .top
  | .inside quoted depth _, o => o.quoted = quoted ∧ o.brackets.length = depth + 1

/-- A text of groups leaves nothing open. A closing bracket ends a group whatever its kind is. -/
lemma after?_of_groupsFrom {state : GroupState} {o : Open} {gs : List (List Char)}
    (h : groupsFrom state cs = .ok gs) (hstate : state.Reads o) : o.after? anyKind cs = some .top := by
  -- inside a group the open brackets are the group's own and one for each level of its depth
  fun_induction groupsFrom state cs generalizing o gs with
  | case1 =>
    cases hstate
    rfl
  | case2 | case3 | case5 | case6 | case8 | case10 => cases h
  | case4 done c cs hopening _ ih =>
    cases hstate
    exact (Open.after?_cons (Open.next?_of_isOpening hopening)).trans (ih h ⟨rfl, rfl⟩)
  | case7 cs _ _ ih =>
    cases hstate
    exact (Open.after?_cons (Open.next?_of_isPlain (by decide))).trans (ih h rfl)
  | case9 done c cs _ _ _ hblank ih =>
    cases hstate
    exact (Open.after?_cons (Open.next?_of_isPlain (isPlain_of_isBlank hblank))).trans (ih h rfl)
  | case11 depth text c cs ih =>
    obtain ⟨q, os⟩ := o
    obtain ⟨rfl, hdepth⟩ : q = true ∧ os.length = depth + 1 := hstate
    by_cases hc : c = quoteMark
    · subst hc
      exact (Open.after?_cons (Open.next?_quoteMark _ _)).trans (ih h ⟨rfl, hdepth⟩)
    · exact (Open.after?_cons (Open.next?_quoted hc)).trans (ih h ⟨(bne_iff_ne.2 hc).symm, hdepth⟩)
  | case12 quoted depth text cs hquoted ih =>
    obtain ⟨rfl, hdepth⟩ := hstate
    exact (Open.after?_cons (Open.next?_quoteMark _ _)).trans (ih h ⟨by simp [hquoted], hdepth⟩)
  | case13 quoted depth text c cs hquoted _ hopening ih =>
    obtain ⟨q, os⟩ := o
    obtain ⟨rfl, hdepth⟩ : q = quoted ∧ os.length = depth + 1 := hstate
    rw [Bool.eq_false_iff.2 hquoted]
    exact (Open.after?_cons (Open.next?_of_isOpening hopening)).trans (ih h ⟨rfl, congrArg (· + 1) hdepth⟩)
  | case14 quoted text c cs hquoted _ _ hclosing ih =>
    obtain ⟨q, os⟩ := o
    obtain ⟨rfl, hdepth⟩ : q = quoted ∧ os.length = 1 := hstate
    -- the group's own bracket closes, and the scan is between groups again
    obtain ⟨b, rfl⟩ := List.length_eq_one_iff.1 hdepth
    obtain ⟨rest, hrest, -⟩ := bind_eq_ok_iff.1 h
    rw [Bool.eq_false_iff.2 hquoted]
    exact (Open.after?_cons (Open.next?_of_isClosing hclosing rfl)).trans (ih hrest rfl)
  | case15 quoted text c cs hquoted _ _ hclosing depth ih =>
    obtain ⟨q, os⟩ := o
    obtain ⟨rfl, hdepth⟩ : q = quoted ∧ os.length = depth + 2 := hstate
    -- a bracket inside the group closes, and the group's own stays open
    obtain ⟨b, os, rfl⟩ := List.exists_cons_of_length_eq_add_one hdepth
    rw [Bool.eq_false_iff.2 hquoted]
    exact (Open.after?_cons (Open.next?_of_isClosing hclosing rfl)).trans (ih h ⟨rfl, Nat.succ.inj hdepth⟩)
  | case16 quoted depth text c cs hquoted hc hopening hclosing ih =>
    obtain ⟨q, os⟩ := o
    obtain ⟨rfl, hdepth⟩ : q = quoted ∧ os.length = depth + 1 := hstate
    have hplain : IsPlain c := ⟨hc, Bool.eq_false_iff.2 hopening, Bool.eq_false_iff.2 hclosing⟩
    rw [Bool.eq_false_iff.2 hquoted]
    exact (Open.after?_cons (Open.next?_of_isPlain hplain)).trans (ih h ⟨rfl, hdepth⟩)

/-- Groups that are read are nested. -/
lemma isNested_of_groups {gs : List (List Char)} (h : groups cs = .ok gs) : IsNested anyKind cs :=
  after?_of_groupsFrom h (show GroupState.Reads (.between false) .top from rfl)

/-- The first of the groups that are read ends at some character, and the others are read behind it. -/
lemma exists_of_groupsFrom {quoted : Bool} {depth : ℕ} {text inner : List Char} {gs : List (List Char)}
    (h : groupsFrom (.inside quoted depth text) cs = .ok (inner :: gs)) :
    ∃ a k r, cs = a ++ k :: r ∧ inner = trim (text.reverse ++ a) ∧ groupsFrom (.between true) r = .ok gs := by
  induction cs generalizing quoted depth text with
  | nil => cases h
  | cons c cs ih =>
    have hinside : ∀ {q d}, groupsFrom (.inside q d (c :: text)) cs = .ok (inner :: gs) →
        ∃ a k r, c :: cs = a ++ k :: r ∧ inner = trim (text.reverse ++ a) ∧
          groupsFrom (.between true) r = .ok gs := by
      intro q d hrest
      obtain ⟨a, k, r, rfl, hinner, hgroups⟩ := ih hrest
      exact ⟨c :: a, k, r, rfl, by simpa using hinner, hgroups⟩
    unfold groupsFrom at h
    split_ifs at h
    · exact hinside h
    · exact hinside h
    · exact hinside h
    · split at h
      · obtain ⟨rest, hrest, hgs⟩ := bind_eq_ok_iff.1 h
        cases hgs
        exact ⟨[], c, cs, rfl, by simp, hrest⟩
      · exact hinside h
    · exact hinside h

/-- No group is read only where one has just ended, and of blanks. -/
lemma isBlank_of_groupsFrom {state : GroupState} (h : groupsFrom state cs = .ok []) :
    state = .between true ∧ ∀ c ∈ cs, isBlank c = true := by
  fun_induction groupsFrom state cs with
  | case1 => exact ⟨rfl, by simp⟩
  | case2 | case3 | case5 | case6 | case8 | case10 => cases h
  | case9 done c cs _ _ _ hblank ih => exact ⟨(ih h).1, List.forall_mem_cons.2 ⟨hblank, (ih h).2⟩⟩
  | case14 =>
    obtain ⟨rest, -, hrest⟩ := bind_eq_ok_iff.1 h
    cases hrest
  | case4 _ _ _ _ _ ih | case7 _ _ _ ih | case11 _ _ _ _ ih | case12 _ _ _ _ _ ih | case13 _ _ _ _ _ _ _ _ ih
  | case15 _ _ _ _ _ _ _ _ _ ih | case16 _ _ _ _ _ _ _ _ _ ih => cases (ih h).1

/-- A list in parentheses has the marks of its content between those of the parentheses. -/
lemma marks_soleGroup {inner : List Char} (h : soleGroup cs = .ok inner) :
    marks cs = '(' :: (marks inner ++ [')']) := by
  simp only [soleGroup] at h
  obtain ⟨gs, hgroups, h⟩ := bind_eq_ok_iff.1 h
  split at h
  · split at h
    · rename_i hends
      obtain ⟨hfirst, hlast⟩ := hends
      cases h
      obtain ⟨text, htext⟩ := List.head?_eq_some_iff.1 hfirst
      have hinside : groupsFrom (.inside false 0 []) text = .ok [inner] := by
        rw [htext] at hgroups
        exact hgroups
      obtain ⟨a, k, r, rfl, rfl, hr⟩ := exists_of_groupsFrom hinside
      rw [htext] at hlast
      -- the text ends with a parenthesis, so there are no blanks behind the group
      have hend : r = [] ∧ k = ')' := by
        rcases List.eq_nil_or_concat' r with rfl | ⟨r, b, rfl⟩
        · rw [← List.cons_append, List.getLast?_concat] at hlast
          exact ⟨rfl, Option.some.inj hlast⟩
        · have hb : isBlank b = true := (isBlank_of_groupsFrom hr).2 b (by simp)
          rw [← List.cons_append, ← List.cons_append, ← List.append_assoc, List.getLast?_concat] at hlast
          cases hlast
          cases hb
      obtain ⟨rfl, rfl⟩ := hend
      rw [← marks_trim, htext, marks_cons_of_not_isPlain (by decide), marks_append, marks_trim]
      rfl
    · cases h
  · cases h

end ProvenTables.Sql
