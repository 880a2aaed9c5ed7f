import ProvenTables.Proofs.Sql.Parts

/-!
# Accepted texts

Reading a statement back to its text: the statement that is read determines the marks of a definition and,
the literal of a comparison apart, of a query (`isWithin_parseSelect`), and those of an insertion up to the
groups of its values. So quotes and brackets of an accepted text are nested properly wherever the parser
takes a text apart (`nests_of_parse`), and nothing is known where it keeps one as it stands
(`exists_accepted_not_nested`).
-/

namespace ProvenTables.Sql

open Text

variable {cs : List Char}

/-! ## Definitions and insertions -/

/-- A name with a list has the quotes and brackets of the list, in parentheses. -/
lemma marks_nameAndList {name : String} {body : List Char} (h : nameAndList cs = .ok (name, body)) :
    marks cs = '(' :: (marks body ++ [')']) := by
  simp only [nameAndList] at h
  split at h
  · cases h
  · obtain ⟨n, hname, h⟩ := bind_eq_ok_iff.1 h
    obtain ⟨b, hbody, h⟩ := bind_eq_ok_iff.1 h
    cases h
    conv_lhs => rw [← List.takeWhile_append_dropWhile (p := (· != '(')) (l := cs)]
    rw [marks_append, marks_identifier hname, marks_soleGroup hbody]
    rfl

/-- Characters are what comes before a word, the word and what comes after it. -/
lemma eq_of_splitAtWordFrom? {K a b : List Char} {s : Nesting} {fresh : Bool}
    (h : splitAtWordFrom? K s fresh cs = some (a, b)) : cs = a ++ (K ++ b) := by
  induction cs generalizing s fresh a b with
  | nil => cases h
  | cons c cs ih =>
    rw [splitAtWordFrom?] at h
    split at h
    · rename_i hword
      obtain ⟨r, hr, -⟩ := beginsWith_iff.1 (Bool.and_eq_true_iff.1 hword).2
      cases h
      rw [hr, List.drop_left, List.nil_append]
    · obtain ⟨⟨a, b⟩, hrest, hab⟩ := Option.map_eq_some_iff.1 h
      cases hab
      rw [ih hrest, List.cons_append]

/-- Characters are what comes before a keyword, the keyword and what comes after it. -/
lemma eq_of_require {k : Keyword} {a b : List Char} (h : require k cs = .ok (a, b)) :
    cs = a ++ (k.word.toList ++ b) := by
  rw [require] at h
  split at h
  · rename_i p hp
    cases h
    exact eq_of_splitAtWordFrom? hp
  · cases h

/-- A keyword has no quotes and brackets. -/
lemma marks_word (k : Keyword) : marks k.word.toList = [] := by cases k <;> decide

/-- What comes before a keyword and after it has all quotes and brackets. -/
lemma marks_require {k : Keyword} {a b : List Char} (h : require k cs = .ok (a, b)) :
    marks cs = marks a ++ marks b := by
  rw [eq_of_require h, marks_append, marks_append, marks_word, List.nil_append]

/-- Every part that is accepted as a definition is flat. -/
lemma isFlat_of_definitions {parts : List (List Char)} {earlier columns : List Column}
    (h : parts.foldlM (fun earlier part => return earlier ++ [← definition earlier part]) earlier =
      .ok columns) : ∀ p ∈ parts, IsFlat p := by
  induction parts generalizing earlier columns with
  | nil => simp
  | cons p parts ih =>
    rw [List.foldlM_cons] at h
    obtain ⟨columns', hcolumn, hrest⟩ := bind_eq_ok_iff.1 h
    obtain ⟨c, hc, -⟩ := bind_eq_ok_iff.1 hcolumn
    exact List.forall_mem_cons.2 ⟨isFlat_of_definition hc, ih hrest⟩

/-- A definition of a table that is accepted is clean. -/
lemma isClean_of_parseCreateTable {s : CreateTable} (h : parseCreateTable cs = .ok s) : IsClean cs := by
  obtain ⟨⟨table, body⟩, hlist, h⟩ := bind_eq_ok_iff.1 h
  obtain ⟨columns, hcolumns, -⟩ := bind_eq_ok_iff.1 h
  refine IsFlat.isClean_of_parts (isFlat_of_definitions hcolumns) ?_
  rw [marks_nameAndList hlist, marks_splitTop (by decide)]

/-- A definition of an index that is accepted has one pair of parentheses. -/
lemma marks_parseCreateIndex {s : CreateIndex} (h : parseCreateIndex cs = .ok s) : marks cs = ['(', ')'] := by
  obtain ⟨⟨before, rest⟩, hon, h⟩ := bind_eq_ok_iff.1 h
  obtain ⟨index, hindex, h⟩ := bind_eq_ok_iff.1 h
  obtain ⟨⟨table, body⟩, hlist, h⟩ := bind_eq_ok_iff.1 h
  obtain ⟨column, hcolumn, -⟩ := bind_eq_ok_iff.1 h
  rw [marks_require hon, marks_identifier hindex, marks_nameAndList hlist, marks_identifier hcolumn]
  rfl

/-- An insertion that is accepted has one list before its keyword, and nested values after it. -/
lemma exists_of_parseInsert {s : Insert} (h : parseInsert cs = .ok s) :
    ∃ head values, cs = head ++ (Keyword.values.word.toList ++ values) ∧ marks head = ['(', ')'] ∧
      IsNested anyKind values := by
  obtain ⟨⟨before, rest⟩, hvalues, h⟩ := bind_eq_ok_iff.1 h
  obtain ⟨⟨table, body⟩, hlist, h⟩ := bind_eq_ok_iff.1 h
  obtain ⟨columns, hcolumns, h⟩ := bind_eq_ok_iff.1 h
  obtain ⟨rows, hrows, -⟩ := bind_eq_ok_iff.1 h
  refine ⟨before, rest, eq_of_require hvalues, ?_, isNested_of_groups hrows⟩
  rw [marks_nameAndList hlist, marks_identifiers hcolumns]
  rfl

/-! ## Queries -/

/-- Whether a text contains the given one with no marks before it and the given ones behind it. -/
def IsWithin (m literal cs : List Char) : Prop :=
  ∃ before after, cs = before ++ (literal ++ after) ∧ marks before = [] ∧ marks after = m

namespace IsWithin

variable {m literal a b : List Char}

/-- A literal is found behind characters without quotes and brackets. -/
lemma after_append (ha : marks a = []) (h : IsWithin m literal cs) : IsWithin m literal (a ++ cs) := by
  obtain ⟨before, after, rfl, hbefore, hafter⟩ := h
  exact ⟨a ++ before, after, by simp, by simp [ha, hbefore], hafter⟩

/-- A literal is found in front of any characters. -/
lemma append (b : List Char) (h : IsWithin m literal cs) : IsWithin (m ++ marks b) literal (cs ++ b) := by
  obtain ⟨before, after, rfl, hbefore, hafter⟩ := h
  exact ⟨before, after ++ b, by simp, hbefore, by simp [hafter]⟩

/-- A literal is found where it is after the blanks at the ends are dropped. -/
lemma of_trim (h : IsWithin m literal (trim cs)) : IsWithin m literal cs := by
  have hleft : marks (cs.takeWhile isBlank) = [] :=
    marks_eq_nil.2 fun c hc => isPlain_of_isBlank (List.mem_takeWhile_imp hc)
  have hright : marks ((trimLeft cs).reverse.takeWhile isBlank).reverse = [] :=
    marks_eq_nil.2 fun c hc => isPlain_of_isBlank (List.mem_takeWhile_imp (List.mem_reverse.1 hc))
  have hcs : cs.takeWhile isBlank ++ (trim cs ++ ((trimLeft cs).reverse.takeWhile isBlank).reverse) = cs := by
    rw [trim, trimRight, dropEndWhile_append_takeWhile, trimLeft, List.takeWhile_append_dropWhile]
  rw [← hcs, ← List.append_nil m, ← hright]
  exact (h.append _).after_append hleft

end IsWithin

/-- The literal of a comparison stands in it behind a name. -/
lemma isWithin_parseFilter {f : Filter} (h : parseFilter cs = .ok f) : IsWithin [] f.literal.toList cs := by
  simp only [parseFilter] at h
  split at h
  · rename_i column literal hparts
    split at h
    · cases h
    · obtain ⟨name, hname, h⟩ := bind_eq_ok_iff.1 h
      cases h
      obtain ⟨x, ys, hcut, hx, hys⟩ := List.map_eq_cons_iff.1 hparts
      obtain ⟨y, rest, rfl, rfl, hrest⟩ := List.map_eq_cons_iff.1 hys
      obtain rfl : rest = [] := List.map_eq_nil_iff.1 hrest
      have htext : x ++ ['='] ++ y = cs := by
        rw [← intercalate_cutAt '=' .top cs, hcut, List.intercalate_cons_cons, List.intercalate_singleton]
      have hbefore : marks (x ++ ['=']) = [] := by
        rw [marks_append, ← marks_trim, hx, marks_identifier hname]
        rfl
      have hliteral : IsWithin [] (trim y) (trim y) := ⟨[], [], by simp, rfl, rfl⟩
      rw [String.toList_ofList, ← htext]
      exact hliteral.of_trim.after_append hbefore
  · cases h

/-- A ranking that is accepted has one pair of brackets. -/
lemma marks_parseRanking {r : Ranking} (h : parseRanking cs = .ok r) : marks cs = ['[', ']'] := by
  obtain ⟨⟨before, rest⟩, hwith, h⟩ := bind_eq_ok_iff.1 h
  obtain ⟨column, hcolumn, h⟩ := bind_eq_ok_iff.1 h
  split at h
  · rename_i v hv
    rw [marks_require hwith, marks_identifier hcolumn, marks_readVector hv]
    rfl
  · cases h

/-- The marks of a query behind its comparison. -/
def Select.rankingMarks (s : Select) : List Char := if s.ranking.isSome then ['[', ']'] else []

/-- The text of the literal of the comparison. -/
def Select.literalText (s : Select) : List Char := (s.filter.map (·.literal.toList)).getD []

/-- The clauses with the texts between them. -/
abbrev Segments := List (Clause × List Char)

/-- The characters of clauses with their bodies. -/
def Segments.text (segs : Segments) : List Char := segs.flatMap fun seg => seg.1.keyword.toList ++ seg.2

/-- Takes the texts behind the keywords into a `SELECT`. -/
def Segments.add (s : Select) (segs : Segments) : Except ParseError Select :=
  segs.foldlM (fun s seg => addClause s seg.1 (trim seg.2)) s

variable {s s' : Select}

/-- A clause that is accepted has a body. -/
lemma ne_nil_of_addClause {c : Clause} {body : List Char} (h : addClause s c body = .ok s') : body ≠ [] := by
  rintro rfl
  cases h

/-- What is taken into a `SELECT` by a clause other than a comparison. -/
lemma addClause_of_ne {c : Clause} {body : List Char} (hc : c ≠ .where) (h : addClause s c body = .ok s') :
    s'.filter = s.filter ∧ (if c = .similarity then s'.ranking.isSome ∧ marks body = ['[', ']']
      else s'.ranking = s.ranking ∧ marks body = []) := by
  have hne : ¬ body.isEmpty = true := by simpa using ne_nil_of_addClause h
  cases c with
  | «where» => exact absurd rfl hc
  | groupBy | orderBy =>
    rw [addClause, if_neg hne] at h
    obtain ⟨column, hcolumn, h⟩ := bind_eq_ok_iff.1 h
    cases h
    exact ⟨rfl, rfl, marks_identifier hcolumn⟩
  | limit =>
    rw [addClause, if_neg hne] at h
    obtain ⟨n, hn, h⟩ := bind_eq_ok_iff.1 h
    cases h
    exact ⟨rfl, rfl, marks_parseLimit hn⟩
  | similarity =>
    rw [addClause, if_neg hne] at h
    obtain ⟨r, hr, h⟩ := bind_eq_ok_iff.1 h
    cases h
    exact ⟨rfl, rfl, marks_parseRanking hr⟩

/-- A condition that is accepted sets no ranking and has its literal in it. -/
lemma addClause_where {body : List Char} (h : addClause s .where body = .ok s') :
    s'.ranking = s.ranking ∧ IsWithin [] s'.literalText body := by
  rw [addClause, if_neg (by simpa using ne_nil_of_addClause h)] at h
  obtain ⟨f, hf, h⟩ := bind_eq_ok_iff.1 h
  cases h
  exact ⟨rfl, isWithin_parseFilter hf⟩

/-- The text between the places of clauses is the text of the clauses. -/
lemma exists_segments {text : List Char} {found : List (ℕ × Clause)}
    (hfound : ∀ p ∈ found, ∃ r, text.drop p.1 = p.2.keyword.toList ++ r)
    (h : addClauses text s found = .ok s') :
    ∃ segs : Segments, segs.map (·.1) = found.map (·.2) ∧
      text.drop ((found.head?.map (·.1)).getD text.length) = segs.text ∧ segs.add s = .ok s' := by
  induction found generalizing s with
  | nil => exact ⟨[], rfl, by simp [Segments.text], h⟩
  | cons p found ih =>
    obtain ⟨start, clause⟩ := p
    obtain ⟨⟨r, hr⟩, hrest⟩ := List.forall_mem_cons.1 hfound
    rw [addClauses_cons] at h
    obtain ⟨s₁, hs₁, h⟩ := bind_eq_ok_iff.1 h
    obtain ⟨segs, hclauses, htext, hadd⟩ := ih hrest h
    obtain ⟨stop, hstop⟩ : ∃ stop, stop = (found.head?.map (·.1)).getD text.length := ⟨_, rfl⟩
    rw [← hstop] at htext hs₁
    refine ⟨(clause, (text.take stop).drop (start + clause.keyword.length)) :: segs, ?_, ?_, ?_⟩
    · rw [List.map_cons, List.map_cons, hclauses]
    -- a clause whose keyword runs into the next one would have an empty body, which is refused
    · have hle : start + clause.keyword.length ≤ stop := by
        by_contra! hlt
        refine ne_nil_of_addClause hs₁ ?_
        rw [List.drop_eq_nil_of_le ((List.length_take_le _ _).trans hlt.le)]
        rfl
      obtain ⟨n, rfl⟩ := Nat.exists_eq_add_of_le hle
      have hr' : r = text.drop (start + clause.keyword.length) := by
        rw [← List.drop_drop, hr, ← String.length_toList, List.drop_left]
      change text.drop start = clause.keyword.toList ++ _ ++ segs.text
      rw [hr, hr', ← htext, List.append_assoc, List.drop_take, Nat.add_sub_cancel_left,
        List.drop_take_append_drop]
    · rw [Segments.add, List.foldlM_cons]
      exact bind_eq_ok_iff.2 ⟨s₁, hs₁, hadd⟩

/-- The words of a clause have no quotes and brackets. -/
lemma marks_keyword (c : Clause) : marks c.keyword.toList = [] := by cases c <;> decide

/-- No clause comes after a ranking, and no comparison after another clause. -/
def Segments.IsOrdered (segs : Segments) : Prop :=
  (segs.map (·.1)).Pairwise fun a b => a ≠ .similarity ∧ b ≠ .where

/-- The marks of clauses without a comparison are those of the ranking. -/
lemma marks_segments {segs : Segments} (hsegs : segs.IsOrdered) (hwhere : ∀ seg ∈ segs, seg.1 ≠ .where)
    (hs : s.ranking = none) (h : segs.add s = .ok s') :
    s'.filter = s.filter ∧ marks segs.text = s'.rankingMarks := by
  induction segs generalizing s with
  | nil =>
    cases h
    exact ⟨rfl, by simp [Segments.text, Select.rankingMarks, hs]⟩
  | cons seg segs ih =>
    obtain ⟨c, raw⟩ := seg
    obtain ⟨hc, hrest⟩ := List.forall_mem_cons.1 hwhere
    obtain ⟨hfirst, hordered⟩ := List.pairwise_cons.1 hsegs
    rw [Segments.add, List.foldlM_cons] at h
    obtain ⟨s₁, hs₁, h⟩ := bind_eq_ok_iff.1 h
    obtain ⟨hfilter, hranking⟩ := addClause_of_ne hc hs₁
    have htext : marks (Segments.text ((c, raw) :: segs)) = marks raw ++ marks (Segments.text segs) := by
      simp [Segments.text, marks_keyword]
    split at hranking
    · rename_i hsimilarity
      -- the ranking is the last clause
      obtain rfl : segs = [] := by
        rw [List.eq_nil_iff_forall_not_mem]
        exact fun seg hseg => (hfirst seg.1 (List.mem_map_of_mem hseg)).1 hsimilarity
      cases h
      obtain ⟨hsome, hmarks⟩ := hranking
      rw [htext, ← marks_trim, hmarks, Select.rankingMarks, if_pos hsome]
      exact ⟨hfilter, rfl⟩
    · obtain ⟨hnone, hmarks⟩ := hranking
      obtain ⟨hfilter', htext'⟩ := ih hordered hrest (hnone.trans hs) h
      rw [htext, ← marks_trim, hmarks, htext']
      exact ⟨hfilter'.trans hfilter, rfl⟩

/-- Around the literal of the comparison there are no marks but those of a ranking behind it. -/
lemma isWithin_segments {segs : Segments} (hsegs : segs.IsOrdered) (hfilter : s.filter = none)
    (hs : s.ranking = none) (h : segs.add s = .ok s') :
    IsWithin s'.rankingMarks s'.literalText segs.text := by
  have hplain : (∀ seg ∈ segs, seg.1 ≠ .where) → IsWithin s'.rankingMarks s'.literalText segs.text := by
    intro hwhere
    obtain ⟨hfilter', htext⟩ := marks_segments hsegs hwhere hs h
    exact ⟨[], segs.text, by simp [Select.literalText, hfilter', hfilter], rfl, htext⟩
  cases segs with
  | nil => exact hplain (by simp)
  | cons seg segs =>
    obtain ⟨c, raw⟩ := seg
    obtain ⟨hfirst, hordered⟩ := List.pairwise_cons.1 hsegs
    have hrest : ∀ seg ∈ segs, seg.1 ≠ .where := fun seg hseg => (hfirst seg.1 (List.mem_map_of_mem hseg)).2
    by_cases hc : c = .where
    · subst hc
      rw [Segments.add, List.foldlM_cons] at h
      obtain ⟨s₁, hs₁, h⟩ := bind_eq_ok_iff.1 h
      obtain ⟨hnone, hliteral⟩ := addClause_where hs₁
      obtain ⟨hfilter', htext⟩ := marks_segments hordered hrest (hnone.trans hs) h
      have hsame : s₁.literalText = s'.literalText := by
        rw [Select.literalText, ← hfilter', Select.literalText]
      rw [← htext, ← hsame]
      exact (hliteral.of_trim.after_append (marks_keyword .where)).append _
    · exact hplain (List.forall_mem_cons.2 ⟨hc, hrest⟩)

/-- A traversal that adds at most one item for each of a list of kinds. -/
lemma exists_of_foldlM {P : ℕ × Clause → Prop}
    {step : List (ℕ × Clause) → Clause → Except ParseError (List (ℕ × Clause))}
    (hstep : ∀ found c found', step found c = .ok found' →
      found' = found ∨ ∃ n, P (n, c) ∧ found' = found ++ [(n, c)])
    {clauses : List Clause} {found found' : List (ℕ × Clause)} (h : clauses.foldlM step found = .ok found') :
    ∃ more, found' = found ++ more ∧ (∀ p ∈ more, P p) ∧ (more.map (·.2)).Sublist clauses := by
  induction clauses generalizing found with
  | nil =>
    cases h
    exact ⟨[], by simp, by simp, by simp⟩
  | cons c clauses ih =>
    rw [List.foldlM_cons] at h
    obtain ⟨next, hnext, h⟩ := bind_eq_ok_iff.1 h
    obtain ⟨more, rfl, hmore, hsub⟩ := ih h
    rcases hstep _ _ _ hnext with rfl | ⟨n, hn, rfl⟩
    · exact ⟨more, rfl, hmore, hsub.cons c⟩
    · exact ⟨(n, c) :: more, by simp, List.forall_mem_cons.2 ⟨hn, hmore⟩, hsub.cons_cons c⟩

/-- The clauses that are located stand at their places, in the order of the clauses. -/
lemma of_locateClauses {text : List Char} {found : List (ℕ × Clause)} (h : locateClauses text = .ok found) :
    (∀ p ∈ found, ∃ r, text.drop p.1 = p.2.keyword.toList ++ r) ∧
      (found.map (·.2)).Sublist Clause.all := by
  suffices hfold : ∃ more, found = [] ++ more ∧
      (∀ p ∈ more, ∃ r, text.drop p.1 = p.2.keyword.toList ++ r) ∧ (more.map (·.2)).Sublist Clause.all by
    obtain ⟨more, rfl, hmore⟩ := hfold
    exact hmore
  refine exists_of_foldlM (fun found c found' hstep => ?_) h
  split at hstep
  · exact .inl (Except.ok.inj hstep).symm
  · exact .inl (Except.ok.inj hstep).symm
  · rename_i before behind _ hsplit
    refine .inr ⟨before.length, ⟨behind, ?_⟩, (Except.ok.inj hstep).symm⟩
    rw [eq_of_splitAtWordFrom? hsplit]
    exact List.drop_left
  · cases hstep

/-- A projection that is accepted has no quotes and brackets. -/
lemma marks_parseProjection {p : Projection} (h : parseProjection cs = .ok p) : marks cs = [] := by
  simp only [parseProjection] at h
  split at h
  · rename_i hall
    rw [← marks_trim, hall]
    decide
  · obtain ⟨names, hnames, -⟩ := bind_eq_ok_iff.1 h
    rw [← marks_trim, marks_identifiers hnames]

/-- The blank at which a name ends is not a mark. -/
lemma marks_blank_behind (cs : List Char) : marks ((cs.dropWhile (· != ' ')).take 1) = [] := by
  have hhead := List.head?_dropWhile_not (· != ' ') cs
  cases hdrop : cs.dropWhile (· != ' ') with
  | nil => rfl
  | cons c r =>
    rw [hdrop] at hhead
    obtain rfl : c = ' ' := by simpa using hhead
    rfl

/-- Before its clauses a query has names, a keyword and blanks. -/
lemma exists_front {before rest : List Char} {projection : Projection} {table : String}
    (hfrom : require .from cs = .ok (before, rest)) (hprojection : parseProjection before = .ok projection)
    (htable : identifier ((trimLeft rest).takeWhile (· != ' ')) = .ok table) :
    ∃ front, marks front = [] ∧ cs = front ++ ((trimLeft rest).dropWhile (· != ' ')).drop 1 := by
  obtain ⟨name, hname⟩ : ∃ name, name = (trimLeft rest).takeWhile (· != ' ') := ⟨_, rfl⟩
  obtain ⟨space, hspace⟩ : ∃ space, space = ((trimLeft rest).dropWhile (· != ' ')).take 1 := ⟨_, rfl⟩
  have hblanks : marks (rest.takeWhile isBlank) = [] :=
    marks_eq_nil.2 fun c hc => isPlain_of_isBlank (List.mem_takeWhile_imp hc)
  have hplain : marks space = [] := hspace ▸ marks_blank_behind (trimLeft rest)
  refine ⟨before ++ (Keyword.from.word.toList ++ (rest.takeWhile isBlank ++ (name ++ space))), ?_, ?_⟩
  · simp only [marks_append, marks_parseProjection hprojection, marks_word, hblanks, hname,
      marks_identifier htable, hplain, List.append_nil]
  · rw [eq_of_require hfrom, hname, hspace]
    simp only [List.append_assoc, List.take_append_drop, List.takeWhile_append_dropWhile, trimLeft]

/-- Around the literal of its comparison a query has no marks but those of a ranking behind it. -/
theorem isWithin_parseSelect (h : parseSelect cs = .ok s) : IsWithin s.rankingMarks s.literalText cs := by
  obtain ⟨⟨before, rest⟩, hfrom, h⟩ := bind_eq_ok_iff.1 h
  obtain ⟨projection, hprojection, h⟩ := bind_eq_ok_iff.1 h
  obtain ⟨table, htable, h⟩ := bind_eq_ok_iff.1 h
  obtain ⟨found, hfound, h⟩ := bind_eq_ok_iff.1 h
  obtain ⟨front, hfront, hcs⟩ := exists_front hfrom hprojection htable
  obtain ⟨tail, htail⟩ : ∃ tail, tail = ((trimLeft rest).dropWhile (· != ' ')).drop 1 := ⟨_, rfl⟩
  rw [← htail] at hfound h hcs
  split at h
  · cases h
  · split at h
    · cases h
    · rename_i hstart
      obtain ⟨hplaces, hsub⟩ := of_locateClauses hfound
      obtain ⟨segs, hclauses, hsegs, hadd⟩ := exists_segments hplaces h
      have hordered : segs.IsOrdered := by
        rw [Segments.IsOrdered, hclauses]
        exact List.Pairwise.sublist hsub (by decide)
      have htrim : trim tail = segs.text := by rw [← hsegs, not_not.1 hstart, List.drop_zero]
      rw [hcs]
      exact (htrim ▸ isWithin_segments hordered rfl rfl hadd).of_trim.after_append hfront

/-! ## Accepted texts -/

/-- How the quotes and brackets nest of a text that is read as the given statement. In the groups of an
insertion brackets of both kinds are counted together, so there any bracket may close any other; and the
literal of a comparison is taken as it stands, so the text is nested if and only if the literal is. -/
def Statement.Nests (sql : List Char) : Statement → Prop
  | createTable _ | createIndex _ => IsClean sql
  | insert _ =>
    Even (sql.count quoteMark) ∧ IsNested anyKind sql ∧
      ∃ head values, squeeze sql = head ++ ("VALUES".toList ++ values) ∧ IsClean head ∧
        IsNested anyKind values
  | select s =>
    (s.filter = none → IsClean sql) ∧
      ∀ f, s.filter = some f →
        (Even (sql.count quoteMark) ↔ Even (f.literal.toList.count quoteMark)) ∧
        (IsNested sameKind sql ↔ IsNested sameKind f.literal.toList) ∧
        ∃ before after, squeeze sql = before ++ (f.literal.toList ++ after) ∧ IsClean before ∧ IsClean after

/-- The quotes and brackets of a ranking are flat. -/
lemma isFlat_rankingMarks (s : Select) (h : marks cs = s.rankingMarks) : IsFlat cs := by
  rw [Select.rankingMarks] at h
  split at h
  · exact .inr h
  · exact .inl h

/-- A query that is accepted nests what it has besides its literal. -/
lemma nests_select {sql : List Char} (h : IsWithin s.rankingMarks s.literalText (squeeze sql)) :
    (Statement.select s).Nests sql := by
  obtain ⟨before, after, htext, hbefore, hafter⟩ := h
  have hflat : IsFlat before := .inl hbefore
  have hflat' : IsFlat after := isFlat_rankingMarks s hafter
  have hmarks : marks sql = marks (before ++ (s.literalText ++ after)) := by rw [← htext, marks_squeeze]
  refine ⟨fun hnone => ?_, fun f hf => ?_⟩
  · have hsame : marks sql = marks after := by simp [hmarks, hbefore, Select.literalText, hnone]
    exact (isClean_congr hsame).2 hflat'.isClean
  · have hliteral : s.literalText = f.literal.toList := by rw [Select.literalText, hf]; rfl
    rw [hliteral] at htext hmarks
    refine ⟨?_, ?_, before, after, htext, hflat.isClean, hflat'.isClean⟩
    · rw [count_congr hmarks, List.count_append, List.count_append,
        List.count_eq_zero_of_not_mem hflat.quoteMark_notMem,
        List.count_eq_zero_of_not_mem hflat'.quoteMark_notMem, Nat.zero_add, Nat.add_zero]
    · rw [isNested_congr hmarks, IsNested, Open.after?_append, hflat.after?]
      change Open.top.after? sameKind (f.literal.toList ++ after) = _ ↔ _
      rw [Open.after?_append, IsNested]
      cases Open.top.after? sameKind f.literal.toList with
      | none => rfl
      | some t => rw [Option.bind_eq_bind, Option.bind_some, hflat'.after?]

/-- The first words of a statement have no quotes and brackets. -/
lemma marks_of_after? {sql pre rest : List Char} (hpre : marks pre = [])
    (h : after? pre (squeeze sql) = some rest) : marks sql = marks rest := by
  rw [← marks_squeeze, after?_eq_some_iff.1 h, marks_append, hpre, List.nil_append]

/-- An insertion that is accepted nests its groups. -/
lemma nests_insert {sql rest : List Char} {s : Insert}
    (h : after? "INSERT INTO ".toList (squeeze sql) = some rest) (hs : parseInsert rest = .ok s) :
    (Statement.insert s).Nests sql := by
  obtain ⟨head, values, rfl, hhead, hvalues⟩ := exists_of_parseInsert hs
  have hnested : IsNested anyKind sql := by
    have hsplit : marks sql = marks (['(', ')'] ++ values) := by
      rw [marks_of_after? (by decide) h, marks_append, marks_append, marks_word, hhead, marks_append]
      rfl
    rw [isNested_congr hsplit]
    exact hvalues
  have hfront : marks ("INSERT INTO ".toList ++ head) = marks ['(', ')'] := by
    rw [marks_append, hhead]
    decide
  refine ⟨hnested.even, hnested, "INSERT INTO ".toList ++ head, values, ?_,
    (isClean_congr hfront).2 (by decide), hvalues⟩
  rw [after?_eq_some_iff.1 h, List.append_assoc]
  rfl

/-- A text that is accepted is nested properly, the literals apart that are taken as they stand. -/
theorem nests_of_parse {sql : String} {s : Statement} (h : parse sql = .ok s) : s.Nests sql.toList := by
  simp only [parse] at h
  split at h
  · cases h
  split at h
  · rename_i rest hrest
    obtain ⟨c, hc, rfl⟩ := map_eq_ok_iff.1 h
    exact (isClean_congr (marks_of_after? (by decide) hrest)).2 (isClean_of_parseCreateTable hc)
  split at h
  · rename_i rest hrest
    obtain ⟨c, hc, rfl⟩ := map_eq_ok_iff.1 h
    have hpair : marks sql.toList = marks ['(', ')'] :=
      (marks_of_after? (by decide) hrest).trans (marks_parseCreateIndex hc)
    exact (isClean_congr hpair).2 (by decide)
  split at h
  · rename_i rest hrest
    obtain ⟨c, hc, rfl⟩ := map_eq_ok_iff.1 h
    exact nests_insert hrest hc
  split at h
  · rename_i rest hrest
    obtain ⟨s, hs, rfl⟩ := map_eq_ok_iff.1 h
    refine nests_select ?_
    rw [after?_eq_some_iff.1 hrest]
    exact (isWithin_parseSelect hs).after_append (by decide)
  · cases h

/-- A bracket in quotes does not count, and a ranking behind a comparison has brackets of its own. -/
theorem nests_of_parse_marked :
    parse "INSERT INTO t (a, b) VALUES ('(', [1, 2]), ('it ]', [3])" =
      .ok (.insert ⟨"t", ["a", "b"], [["'('", "[1, 2]"], ["'it ]'", "[3]"]]⟩) ∧
    (Statement.insert ⟨"t", ["a", "b"], [["'('", "[1, 2]"], ["'it ]'", "[3]"]]⟩).Nests
      "INSERT INTO t (a, b) VALUES ('(', [1, 2]), ('it ]', [3])".toList ∧
    parse "SELECT a FROM t WHERE a = '[' COSINE SIMILARITY b WITH []" =
      .ok (.select ⟨"t", .columns ["a"], some ⟨"a", "'['"⟩, none, none, none, some ⟨"b", []⟩⟩) ∧
    (Statement.select ⟨"t", .columns ["a"], some ⟨"a", "'['"⟩, none, none, none, some ⟨"b", []⟩⟩).Nests
      "SELECT a FROM t WHERE a = '[' COSINE SIMILARITY b WITH []".toList := by
  have hinsert : parse "INSERT INTO t (a, b) VALUES ('(', [1, 2]), ('it ]', [3])" =
      .ok (.insert ⟨"t", ["a", "b"], [["'('", "[1, 2]"], ["'it ]'", "[3]"]]⟩) := by decide +kernel
  have hselect : parse "SELECT a FROM t WHERE a = '[' COSINE SIMILARITY b WITH []" =
      .ok (.select ⟨"t", .columns ["a"], some ⟨"a", "'['"⟩, none, none, none, some ⟨"b", []⟩⟩) := by
    decide +kernel
  exact ⟨hinsert, nests_of_parse hinsert, hselect, nests_of_parse hselect⟩

/-- Brackets of one kind close those of the other in a group of values, and in the literal of a comparison
neither brackets nor quotes have to come in pairs. -/
theorem exists_accepted_not_nested :
    (∃ s, parse "INSERT INTO t (a) VALUES ([1))" = .ok s ∧
      ¬ IsNested sameKind "INSERT INTO t (a) VALUES ([1))".toList) ∧
    (∃ s, parse "SELECT a FROM t WHERE b = 1)" = .ok s ∧
      ¬ IsNested sameKind "SELECT a FROM t WHERE b = 1)".toList) ∧
    (∃ s, parse "SELECT a FROM t WHERE b = (1 LIMIT 5" = .ok s ∧
      ¬ IsNested sameKind "SELECT a FROM t WHERE b = (1 LIMIT 5".toList) ∧
    ∃ s, parse "SELECT a FROM t WHERE b = 'x" = .ok s ∧
      ¬ Even ("SELECT a FROM t WHERE b = 'x".toList.count quoteMark) := by
  refine ⟨⟨.insert ⟨"t", ["a"], [["[1)"]]⟩, ?_, ?_⟩,
    ⟨.select ⟨"t", .columns ["a"], some ⟨"b", "1)"⟩, none, none, none, none⟩, ?_, ?_⟩,
    ⟨.select ⟨"t", .columns ["a"], some ⟨"b", "(1 LIMIT 5"⟩, none, none, none, none⟩, ?_, ?_⟩,
    ⟨.select ⟨"t", .columns ["a"], some ⟨"b", "'x"⟩, none, none, none, none⟩, ?_, ?_⟩⟩
  all_goals decide +kernel

end ProvenTables.Sql
