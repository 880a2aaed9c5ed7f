import ProvenTables.Proofs.Sql.Accepted

/-!
# Quotations

The texts between the quotes of a text. Squeezing blanks keeps them (`quotations_squeeze`), and so does every
cut that the parser makes, since it cuts outside of quotes: the quotations of an accepted text are those of the
literals of its statement, character for character and in their order (`quotations_of_parse`).
-/

namespace ProvenTables.Sql

open Text

/-- What has been read, backwards, of the text between quotes; none outside of them. -/
abbrev Quotation := Option (List Char)

namespace Quotation

/-- What has been read of a quotation after one more character. -/
def next (q : Quotation) (c : Char) : Quotation :=
  if c = quoteMark then if q.isSome then none else some [] else q.map (c :: ·)

/-- The text between quotes that a character ends. -/
def ended? (q : Quotation) (c : Char) : Option (List Char) :=
  if c = quoteMark then q.map List.reverse else none

variable {q : Quotation} {c : Char}

/-- A quote opens or closes a quotation. -/
lemma isSome_next (q : Quotation) (c : Char) : (q.next c).isSome = (q.isSome != (c == quoteMark)) := by
  rw [next]
  by_cases hc : c = quoteMark
  · cases q <;> simp [hc]
  · cases q <;> simp [hc]

/-- Outside of quotations a character is passed over. -/
lemma next_none (hc : c ≠ quoteMark) : next none c = none := by simp [next, hc]

/-- Only a quote ends a quotation. -/
lemma ended?_of_ne (hc : c ≠ quoteMark) : q.ended? c = none := if_neg hc

end Quotation

/-- The texts between quotes that end in a text, in their order. -/
def quotationsFrom : Quotation → List Char → List (List Char)
  | _, [] => []
  | q, c :: cs => (q.ended? c).toList ++ quotationsFrom (q.next c) cs

/-- The texts between the quotes of a text in their order. -/
def quotations (cs : List Char) : List (List Char) := quotationsFrom none cs

section

variable {q : Quotation} {a b cs : List Char} {c : Char}

/-- A quotation that ends at a character comes before those after it. -/
lemma quotationsFrom_cons (q : Quotation) (c : Char) (cs : List Char) :
    quotationsFrom q (c :: cs) = (q.ended? c).toList ++ quotationsFrom (q.next c) cs := rfl

/-- Without quotes there are no quotations. -/
lemma quotationsFrom_eq_nil (h : quoteMark ∉ cs) : quotationsFrom q cs = [] := by
  induction cs generalizing q with
  | nil => rfl
  | cons c cs ih =>
    rw [List.mem_cons, not_or] at h
    rw [quotationsFrom_cons, Quotation.ended?_of_ne (Ne.symm h.1), ih h.2]
    rfl

/-- Nothing ends in a text without quotes, also if one is open. -/
lemma quotationsFrom_append_of_notMem (h : quoteMark ∉ b) :
    quotationsFrom q (a ++ b) = quotationsFrom q a := by
  induction a generalizing q with
  | nil => exact quotationsFrom_eq_nil h
  | cons c a ih => rw [List.cons_append, quotationsFrom_cons, quotationsFrom_cons, ih]

/-- Whether a text that begins inside quotes or outside of them ends outside of them. -/
def EndsOutside (quoted : Bool) (cs : List Char) : Prop := Even (cs.count quoteMark) ↔ quoted = false

/-- Whether a text ends outside of quotes is found one character after the other. -/
lemma endsOutside_cons {quoted : Bool} :
    EndsOutside quoted (c :: cs) ↔ EndsOutside (quoted != (c == quoteMark)) cs := by
  by_cases hc : c = quoteMark
  · rw [EndsOutside, EndsOutside, hc, List.count_cons_self, Nat.even_add_one]
    cases quoted <;> simp
  · rw [EndsOutside, EndsOutside, List.count_cons_of_ne hc, beq_false_of_ne hc, Bool.bne_false]

/-- A character that is no quote does not matter for where a text ends. -/
lemma endsOutside_cons_of_ne {quoted : Bool} (hc : c ≠ quoteMark) :
    EndsOutside quoted (c :: cs) ↔ EndsOutside quoted cs := by
  rw [endsOutside_cons, beq_false_of_ne hc, Bool.bne_false]

/-- A quote changes the side that a text ends on. -/
lemma endsOutside_quoteMark {quoted : Bool} :
    EndsOutside (!quoted) (quoteMark :: cs) ↔ EndsOutside quoted cs := by
  rw [endsOutside_cons, beq_self_eq_true, Bool.bne_true, Bool.not_not]

/-- A text that starts outside of quotes ends outside if it has an even number of them. -/
lemma endsOutside_false : EndsOutside false cs ↔ Even (cs.count quoteMark) := by simp [EndsOutside]

/-- A text that ends outside of quotes has its quotations before those after it. -/
lemma quotationsFrom_append (h : EndsOutside q.isSome a) :
    quotationsFrom q (a ++ b) = quotationsFrom q a ++ quotations b := by
  induction a generalizing q with
  | nil =>
    have hnone : q = none := by simpa [EndsOutside] using h
    rw [hnone]
    rfl
  | cons c a ih =>
    rw [endsOutside_cons, ← Quotation.isSome_next] at h
    rw [List.cons_append, quotationsFrom_cons, quotationsFrom_cons, ih h, List.append_assoc]

/-- A text with an even number of quotes has its quotations before those after it. -/
lemma quotations_append (h : Even (a.count quoteMark)) :
    quotations (a ++ b) = quotations a ++ quotations b :=
  quotationsFrom_append (endsOutside_false.2 h)

/-- A text without quotes adds no quotations at the end. -/
lemma quotations_append_of_notMem (h : quoteMark ∉ b) : quotations (a ++ b) = quotations a :=
  quotationsFrom_append_of_notMem h

/-- A text without quotes adds no quotations at the front. -/
lemma quotations_of_notMem_append (h : quoteMark ∉ a) : quotations (a ++ b) = quotations b := by
  rw [quotations_append (by simp [List.count_eq_zero_of_not_mem h]), quotations, quotationsFrom_eq_nil h,
    List.nil_append]

/-- A character that is no quote adds no quotation. -/
lemma quotations_cons (h : c ≠ quoteMark) : quotations (c :: cs) = quotations cs :=
  quotations_of_notMem_append (a := [c]) (by simpa using Ne.symm h)

/-! ## Squeezing -/

/-- Blanks are no quotes. -/
lemma quoteMark_notMem_of_isBlank (h : ∀ c ∈ cs, isBlank c = true) : quoteMark ∉ cs := by
  intro hmem
  cases h _ hmem

/-- Dropping blanks at the front keeps the quotations. -/
lemma quotations_trimLeft (cs : List Char) : quotations (trimLeft cs) = quotations cs := by
  conv_rhs => rw [← List.takeWhile_append_dropWhile (p := isBlank) (l := cs)]
  exact (quotations_of_notMem_append (quoteMark_notMem_of_isBlank fun _ => List.mem_takeWhile_imp)).symm

/-- Dropping characters that are no quotes at the end keeps the quotations. -/
lemma quotations_dropEndWhile {p : Char → Bool} (hp : p quoteMark = false) (cs : List Char) :
    quotations (dropEndWhile p cs) = quotations cs := by
  have hend : quoteMark ∉ (cs.reverse.takeWhile p).reverse := by
    rw [List.mem_reverse]
    intro hmem
    exact Bool.eq_false_iff.1 hp (List.mem_takeWhile_imp hmem)
  conv_rhs => rw [← dropEndWhile_append_takeWhile p cs]
  exact (quotations_append_of_notMem hend).symm

/-- Dropping blanks at the ends keeps the quotations. -/
@[simp] lemma quotations_trim (cs : List Char) : quotations (trim cs) = quotations cs :=
  (quotations_dropEndWhile (by decide) _).trans (quotations_trimLeft cs)

/-- No blanks are pending inside quotes, so those that are kept are those that are there. -/
lemma quotationsFrom_collapse {pending : Bool} (h : pending = true → q = none) (cs : List Char) :
    quotationsFrom q (collapse q.isSome pending cs) = quotationsFrom q cs := by
  induction cs generalizing q pending with
  | nil => rfl
  | cons c cs ih =>
    rw [collapse]
    split
    · rename_i hblank
      obtain ⟨hnone, hblank⟩ := Bool.and_eq_true_iff.1 hblank
      have hc : c ≠ quoteMark := (isPlain_of_isBlank hblank).1
      obtain rfl : q = none := by simpa using hnone
      rw [quotationsFrom_cons, Quotation.ended?_of_ne hc, Quotation.next_none hc]
      exact ih fun _ => rfl
    · have hkept : quotationsFrom q (c :: collapse (q.isSome != (c == quoteMark)) false cs) =
          quotationsFrom q (c :: cs) := by
        rw [← Quotation.isSome_next, quotationsFrom_cons, quotationsFrom_cons, ih (by simp)]
      dsimp only
      split
      · rename_i hpending
        obtain rfl := h hpending
        exact hkept
      · exact hkept

/-- Squeezing the blanks of a text keeps what is between its quotes. -/
theorem quotations_squeeze (cs : List Char) : quotations (squeeze cs) = quotations cs := by
  rw [squeeze, trimRight, quotations_dropEndWhile (by decide), quotations_dropEndWhile (by decide)]
  exact (quotationsFrom_collapse (q := none) (fun _ => rfl) _).trans (quotations_trim cs)

end

/-! ## Cuts -/

section

variable {q : Quotation} {s : Nesting} {cs part : List Char} {parts : List (List Char)} {sep : Char}

/-- A quote changes whether the nesting is within quotes. -/
lemma Nesting.quoted_next (s : Nesting) (c : Char) : (s.next c).quoted = (s.quoted != (c == quoteMark)) := by
  unfold next
  grind

/-- The quotations of the parts are those of the text. -/
lemma quotationsFrom_cutAt (hq : q.isSome = s.quoted) (h : cutAt sep s cs = part :: parts) :
    quotationsFrom q cs = quotationsFrom q part ++ parts.flatMap quotations := by
  induction cs generalizing q s part parts with
  | nil =>
    cases h
    rfl
  | cons c cs ih =>
    obtain ⟨first, rest, hcut⟩ := List.exists_cons_of_ne_nil (cutAt_ne_nil sep (s.next c) cs)
    have hnext : (q.next c).isSome = (s.next c).quoted := by
      rw [Quotation.isSome_next, Nesting.quoted_next, hq]
    by_cases hsep : (s.isTop c && c == sep) = true
    · -- the character that is cut out stands outside of quotes
      obtain ⟨hc, houtside⟩ : c ≠ quoteMark ∧ s.quoted = false := by
        have htop := (Bool.and_eq_true_iff.1 hsep).1
        simp only [Nesting.isTop, Bool.and_eq_true, bne_iff_ne, Bool.not_eq_true'] at htop
        exact ⟨htop.1.1.1, htop.1.1.2⟩
      obtain rfl : q = none := by simpa [houtside] using hq
      rw [cutAt, if_pos hsep, hcut] at h
      cases h
      rw [quotationsFrom_cons, Quotation.ended?_of_ne hc, ih hnext hcut, Quotation.next_none hc]
      rfl
    · rw [cutAt_cons (Bool.eq_false_iff.2 hsep), hcut] at h
      cases h
      rw [quotationsFrom_cons, ih hnext hcut, quotationsFrom_cons, List.append_assoc]

/-- The quotations of a text are those of its parts. -/
lemma quotations_splitTop (sep : Char) (cs : List Char) :
    (splitTop sep cs).flatMap quotations = quotations cs := by
  obtain ⟨part, parts, hcut⟩ := List.exists_cons_of_ne_nil (cutAt_ne_nil sep .top cs)
  simp only [splitTop, List.flatMap_map, quotations_trim, hcut, List.flatMap_cons]
  exact (quotationsFrom_cutAt rfl hcut).symm

/-- The quotations of the literals are those of the group. -/
lemma quotations_literals (group : List Char) :
    (literals group).flatMap (fun l => quotations l.toList) = quotations group := by
  rw [literals]
  split
  · rename_i hempty
    rw [List.isEmpty_iff.1 hempty]
    rfl
  · simpa only [List.flatMap_map, String.toList_ofList] using quotations_splitTop ',' group

end

/-! ## Groups -/

/-- What has been read of a group that has not ended. -/
def GroupState.text : GroupState → List Char
  | .between _ => []
  | .inside _ _ text => text.reverse

/-- Whether a reader of groups knows if it is inside quotes. -/
def GroupState.IsAware : GroupState → Prop
  | .between _ => True
  | .inside quoted _ text => EndsOutside quoted text

/-- The quotations of a text of groups are those of its groups. -/
lemma quotations_groupsFrom {state : GroupState} {cs : List Char} {gs : List (List Char)}
    (h : groupsFrom state cs = .ok gs) (hstate : state.IsAware) :
    quotations (state.text ++ cs) = gs.flatMap quotations := by
  have hread : ∀ (text : List Char) (c : Char) (cs : List Char),
      text.reverse ++ c :: cs = (c :: text).reverse ++ cs := by simp
  -- the text of an open group is kept reversed, and the parity of its marks tells if a quotation is open
  fun_induction groupsFrom state cs generalizing gs with
  | case1 =>
    cases h
    rfl
  | case2 | case3 | case5 | case6 | case8 | case10 => cases h
  | case4 done c cs hopening _ ih =>
    refine (quotations_cons (Nesting.ne_quoteMark_of_isOpening hopening)).trans (ih h ?_)
    exact endsOutside_false.2 Even.zero
  | case7 cs _ _ ih => exact (quotations_cons (by decide)).trans (ih h trivial)
  | case9 done c cs _ _ _ hblank ih =>
    exact (quotations_cons (isPlain_of_isBlank hblank).1).trans (ih h trivial)
  | case11 depth text c cs ih =>
    refine (congrArg quotations (hread text c cs)).trans (ih h ?_)
    by_cases hc : c = quoteMark
    · subst hc
      exact endsOutside_quoteMark.2 hstate
    · rw [bne_iff_ne.2 hc]
      exact (endsOutside_cons_of_ne hc).2 hstate
  | case12 quoted depth text cs hquoted ih =>
    rw [Bool.eq_false_iff.2 hquoted] at hstate
    exact (congrArg quotations (hread text _ cs)).trans (ih h (endsOutside_quoteMark.2 hstate))
  | case14 quoted text c cs hquoted hc _ _ ih =>
    obtain ⟨rest, hrest, hgs⟩ := bind_eq_ok_iff.1 h
    cases hgs
    -- the group closes outside quotes, so no quotation runs on into the rest
    have houtside : Even (text.reverse.count quoteMark) := by
      rw [List.count_reverse]
      exact hstate.2 (Bool.eq_false_iff.2 hquoted)
    rw [List.flatMap_cons, quotations_trim, ← ih hrest trivial]
    exact (quotations_append houtside).trans (congrArg _ (quotations_cons hc))
  | case13 quoted depth text c cs hquoted hc _ ih | case15 quoted text c cs hquoted hc _ _ depth ih
  | case16 quoted depth text c cs hquoted hc _ _ ih =>
    rw [Bool.eq_false_iff.2 hquoted] at hstate
    exact (congrArg quotations (hread text c cs)).trans (ih h ((endsOutside_cons_of_ne hc).2 hstate))

/-! ## Statements -/

/-- The texts of the literals of a statement. -/
def Statement.literals : Statement → List String
  | createTable _ | createIndex _ => []
  | insert s => s.rows.flatten
  | select s => s.filter.toList.map (·.literal)

/-- The quotations of an insertion are in its literals. -/
lemma quotations_parseInsert {cs : List Char} {s : Insert} (h : parseInsert cs = .ok s) :
    s.rows.flatten.flatMap (fun l => quotations l.toList) = quotations cs := by
  obtain ⟨⟨before, rest⟩, hvalues, h⟩ := bind_eq_ok_iff.1 h
  obtain ⟨⟨table, body⟩, hlist, h⟩ := bind_eq_ok_iff.1 h
  obtain ⟨columns, hcolumns, h⟩ := bind_eq_ok_iff.1 h
  obtain ⟨rows, hrows, h⟩ := bind_eq_ok_iff.1 h
  cases h
  have hbefore : quoteMark ∉ before ++ Keyword.values.word.toList := by
    rw [← mem_marks, marks_append, marks_word, marks_nameAndList hlist, marks_identifiers hcolumns]
    decide
  rw [eq_of_require hvalues, ← List.append_assoc, quotations_of_notMem_append hbefore, ← List.flatMap_def,
    List.flatMap_assoc]
  simp only [quotations_literals]
  exact (quotations_groupsFrom hrows trivial).symm

/-- The quotations of a query are in its literals. -/
lemma quotations_parseSelect {cs : List Char} {s : Select} (h : parseSelect cs = .ok s) :
    (Statement.select s).literals.flatMap (fun l => quotations l.toList) = quotations cs := by
  obtain ⟨before, after, rfl, hbefore, hafter⟩ := isWithin_parseSelect h
  have hbefore : quoteMark ∉ before := by simp [← mem_marks, hbefore]
  have hafter : quoteMark ∉ after := (isFlat_rankingMarks s hafter).quoteMark_notMem
  rw [quotations_of_notMem_append hbefore, quotations_append_of_notMem hafter, Statement.literals,
    Select.literalText]
  cases s.filter with
  | none => rfl
  | some f => simp

/-- Whether a text behind the first keywords is read as the given statement. -/
def Statement.IsReadFrom (rest : List Char) : Statement → Prop
  | createTable c => parseCreateTable rest = .ok c
  | createIndex c => parseCreateIndex rest = .ok c
  | insert c => parseInsert rest = .ok c
  | select c => parseSelect rest = .ok c

/-- An accepted text begins with keywords, and its statement is read behind them. -/
lemma exists_of_parse {sql : String} {s : Statement} (h : parse sql = .ok s) :
    ∃ keywords rest, squeeze sql.toList = keywords ++ rest ∧ quoteMark ∉ keywords ∧ s.IsReadFrom rest := by
  simp only [parse] at h
  split at h
  · cases h
  split at h
  · rename_i rest hrest
    obtain ⟨c, hc, rfl⟩ := map_eq_ok_iff.1 h
    exact ⟨_, rest, after?_eq_some_iff.1 hrest, by decide, hc⟩
  split at h
  · rename_i rest hrest
    obtain ⟨c, hc, rfl⟩ := map_eq_ok_iff.1 h
    exact ⟨_, rest, after?_eq_some_iff.1 hrest, by decide, hc⟩
  split at h
  · rename_i rest hrest
    obtain ⟨c, hc, rfl⟩ := map_eq_ok_iff.1 h
    exact ⟨_, rest, after?_eq_some_iff.1 hrest, by decide, hc⟩
  split at h
  · rename_i rest hrest
    obtain ⟨c, hc, rfl⟩ := map_eq_ok_iff.1 h
    exact ⟨_, rest, after?_eq_some_iff.1 hrest, by decide, hc⟩
  · cases h

/-- The quotations of an accepted text are those of the literals of its statement. -/
theorem quotations_of_parse {sql : String} {s : Statement} (h : parse sql = .ok s) :
    s.literals.flatMap (fun l => quotations l.toList) = quotations sql.toList := by
  obtain ⟨keywords, rest, htext, hkeywords, hread⟩ := exists_of_parse h
  rw [← quotations_squeeze, htext, quotations_of_notMem_append hkeywords]
  cases s with
  | createTable c => exact (quotationsFrom_eq_nil (isClean_of_parseCreateTable hread).1).symm
  | createIndex c =>
    have hquotes : quoteMark ∉ rest := by
      rw [← mem_marks, marks_parseCreateIndex hread]
      decide
    exact (quotationsFrom_eq_nil hquotes).symm
  | insert c => exact quotations_parseInsert hread
  | select c => exact quotations_parseSelect hread

end ProvenTables.Sql
