import ProvenTables.Proofs.Sql.Lists

/-!
# Reading back statements

A `SELECT` is read back whatever clauses it has, and with it every statement (`parse_render`).
-/

namespace ProvenTables.Sql

open Text

/-! ## Projections -/

/-- Names are passed without finding a keyword that is none of them. -/
lemma passes_joined (k : Keyword) {names : List String} {rest : List Char} (hne : names ≠ [])
    (h : ∀ n ∈ names, isIdentifier n.toList = true ∧ n ≠ k.word) (hrest : endsWord rest = true) :
    Passes k.word.toList (joined names) rest := by
  induction names with
  | nil => exact absurd rfl hne
  | cons n names ih =>
    obtain ⟨⟨hn, hnk⟩, hnames⟩ := List.forall_mem_cons.1 h
    cases names with
    | nil => exact joined_singleton n ▸ passes_name k hn hnk hrest
    | cons n' names =>
      -- the comma is part of the word of `n`, which is therefore not the keyword
      have htext : joined (n :: n' :: names) = (n.toList ++ [',']) ++ ' ' :: joined (n' :: names) := by
        simp [joined, List.intercalate_cons_cons]
      have hcomma : IsWord [','] := .of_forall (by simp) (by decide)
      have hword : IsWord (n.toList ++ [',']) := ((isText_name hn).mono fun _ hc => hc.1).append hcomma
      have hunbroken : IsUnbroken (n.toList ++ [',']) := by
        intro c hc
        rcases List.mem_append.1 hc with hc | hc
        · exact isUnbroken_bare (isBare_of_isIdentifier hn) c hc
        · rw [List.mem_singleton.1 hc]
          decide
      have hother : n.toList ++ [','] ≠ k.word.toList := by
        intro heq
        have hlast := congrArg List.getLast? heq
        rw [List.getLast?_concat] at hlast
        cases k <;> cases hlast
      rw [htext]
      refine (passes_word (isKeyword_word k) hword ?_).spaced (isKeyword_word k)
        (ih (List.cons_ne_nil _ _) hnames)
      exact beginsWith_eq_false hunbroken (isUnbroken_word k) rfl hother

/-- The characters of a projection are the names that are joined. -/
lemma toList_renderProjection (names : List String) :
    (Projection.columns names).render.toList = joined names :=
  String.toList_intercalate

/-- A projection is read back, and a search for the keyword behind it goes past it. -/
lemma parseProjection_render {p : Projection}
    (h : ∀ names, p = .columns names → names ≠ [] ∧ ∀ c ∈ names, IsName c) :
    IsText (fun _ => True) p.render.toList ∧
    (∀ rest, endsWord rest = true → Passes Keyword.from.word.toList p.render.toList rest) ∧
    parseProjection (p.render.toList ++ [' ']) = .ok p := by
  cases p with
  | all =>
    have hword : IsWord ['*'] := .of_forall (by simp) (by decide)
    refine ⟨hword.mono fun _ _ => trivial, fun rest _ => ?_, rfl⟩
    exact passes_word (isKeyword_word _) hword (beginsWith_cons_eq_false (isKeyword_word _) rfl)
  | columns names =>
    obtain ⟨hne, hnames⟩ := h names rfl
    have htexts : ∀ n ∈ names, IsText IsTokenChar n.toList := fun n hn => isText_name (hnames n hn).1
    have htext : IsText (fun _ => True) (joined names) :=
      isText_joined trivial trivial hne fun n hn => (htexts n hn).any
    rw [toList_renderProjection]
    refine ⟨htext, fun rest hrest => passes_joined .from hne (fun n hn => ⟨(hnames n hn).1, ?_⟩) hrest, ?_⟩
    · rintro rfl
      exact (hnames _ hn).2 (by simp [Keyword.word])
    -- if the joined names read `*`, one of them would be no identifier
    · have hstar : joined names ≠ ['*'] := by
        intro hstar
        have hparts := splitTop_joined hne fun n hn => (htexts n hn).mono fun _ => IsTokenChar.ne_comma
        have hmem : ['*'] ∈ names.map String.toList := by
          rw [← hparts, hstar]
          decide
        obtain ⟨n, hn, hnstar⟩ := List.mem_map.1 hmem
        have hidentifier := (hnames n hn).1
        rw [hnstar] at hidentifier
        cases hidentifier
      simp only [parseProjection, trim_append_space htext.sharp.isTrimmed, if_neg hstar,
        mapM_identifier hne fun n hn => (hnames n hn).1]
      rfl

/-! ## Clauses -/

/-- A name is no keyword. -/
lemma IsName.ne {name : String} (h : IsName name) (k : Keyword) : name ≠ k.word := by
  rintro rfl
  cases k <;> exact h.2 (by decide)

/-- A name is an argument. -/
lemma IsName.isArgument {name : String} (h : IsName name) : IsArgument name.toList := by
  refine .inr ⟨isUnbroken_bare h.isBare, fun heq => h.2 ?_, fun heq => h.2 ?_⟩
  · rw [String.toList_inj.1 heq]
    decide
  · rw [String.toList_inj.1 heq]
    decide

/-- A name is a word. -/
lemma IsName.isWord {name : String} (h : IsName name) : IsWord name.toList :=
  (isText_name h.1).mono fun _ hc => hc.1

/-- A literal is a text without commas and an argument. -/
lemma isText_literal {t : String} (h : IsLiteral t) :
    IsText IsTokenChar t.toList ∧ IsArgument t.toList := by
  cases h with
  | bare h hwhere hlimit =>
    exact ⟨isText_bare h, .inr ⟨isUnbroken_bare h, fun heq => hwhere (String.toList_inj.1 heq),
      fun heq => hlimit (String.toList_inj.1 heq)⟩⟩
  | quoted h =>
    refine ⟨isText_quote h, .inl fun c hc => ?_⟩
    rw [show (quote _).toList.head? = some quoteMark by simp [quote, quoteMark]] at hc
    cases hc
    rfl

/-- A text that does not begin with the second word of a keyword. -/
lemma blocks_cons {c : Char} (h : c ≠ 'B' ∧ c ≠ 'S') (r : List Char) : Blocks (' ' :: c :: r) := by
  refine ⟨rfl, fun t => ⟨fun heq => ?_, fun heq => ?_⟩⟩
  · exact h.1 (List.cons.inj (List.cons.inj heq).2).1
  · exact h.2 (List.cons.inj (List.cons.inj heq).2).1

/-- The clauses with the texts of their bodies. -/
def Select.segments (s : Select) : List (Clause × List Char) := s.clauses.map fun c => (c.1, c.2.toList)

/-- The text of a filter is a body. -/
lemma isBody_filter {f : Filter} (hc : IsName f.column) (hl : IsLiteral f.literal) :
    IsBody (f.column ++ " = " ++ f.literal).toList := by
  obtain ⟨htext, hargument⟩ := isText_literal hl
  have hequals : IsWord ['='] := .of_forall (by simp) (by decide)
  have hbody : IsBody (['='] ++ ' ' :: f.literal.toList) :=
    (isBody_argument (htext.mono fun _ hc => hc.1) hargument).spaced hequals
      fun K r => passes_of_head K hequals (by rintro _ ⟨⟩; rfl) _
  have := hbody.spaced hc.isWord fun K r => passes_argument K hc.isWord hc.isArgument
    (blocks_cons (by decide) _)
  simpa using this

/-- The text of a ranking is a body. -/
lemma isBody_ranking {r : Ranking} (hc : IsName r.column) (hx : ∀ x ∈ r.vector, x.isFinite = true) :
    IsBody (r.column ++ " WITH " ++ renderFloats r.vector).toList := by
  have hvector : ∀ P, IsText P (renderFloats r.vector).toList := fun P =>
    isText_bracketed (Q := IsTokenChar) fun i hi => by
      obtain ⟨x, hxr, rfl⟩ := List.mem_map.1 hi
      exact isText_bare (isBare_render (hx x hxr))
  obtain ⟨inner, hinner⟩ : ∃ inner, (renderFloats r.vector).toList = '[' :: inner :=
    ⟨_, by simp [renderFloats, bracketed]; rfl⟩
  have hbody : IsBody (renderFloats r.vector).toList := by
    refine isBody_argument (hvector _) (.inl fun c hc => ?_)
    rw [hinner] at hc
    cases hc
    rfl
  have hwith : IsBody ("WITH".toList ++ ' ' :: (renderFloats r.vector).toList) := by
    refine hbody.spaced (isWord_word .with) fun K t => ?_
    rw [hinner]
    exact passes_argument K (isWord_word .with) (.inr ⟨by decide, by decide, by decide⟩)
      (blocks_cons (by decide) _)
  have := hwith.spaced hc.isWord fun K t => passes_argument K hc.isWord hc.isArgument
    (blocks_cons (by decide) _)
  simpa using this

/-- A digit is no letter. -/
lemma isAlpha_of_isDigit {c : Char} (h : c.isDigit = true) : c.isAlpha = false := by
  rw [Bool.eq_false_iff]
  intro halpha
  exact absurd ((toNat_of_isAlpha halpha).1.trans (Char.isDigit_iff_toNat.1 h).2) (by decide)

/-- Every segment of a query that can be printed has a body. -/
lemma isBody_of_mem {s : Select} (h : s.IsPrintable) : ∀ seg ∈ s.segments, IsBody seg.2 := by
  have hname : ∀ {c : String}, IsName c → IsBody c.toList :=
    fun hc => isBody_argument hc.isWord hc.isArgument
  intro seg hseg
  obtain ⟨clause, hclause, rfl⟩ := List.mem_map.1 hseg
  simp only [Select.clauses, List.mem_append, Option.mem_toList, Option.map_eq_some_iff] at hclause
  rcases hclause with (((⟨f, hf, rfl⟩ | ⟨c, hc, rfl⟩) | ⟨c, hc, rfl⟩) | ⟨n, -, rfl⟩) | ⟨r, hr, rfl⟩
  · exact isBody_filter (h.filter f hf).1 (h.filter f hf).2
  · exact hname (h.groupBy c hc)
  · exact hname (h.orderBy c hc)
  · refine isBody_argument ((isText_bare (isBare_nat n)).mono fun _ hc => hc.1) (.inl fun c hc => ?_)
    exact isAlpha_of_isDigit (isDigit_of_mem_digits (toList_toString_nat n ▸ List.mem_of_mem_head? hc))
  · exact isBody_ranking (h.ranking r hr).1 (h.ranking r hr).2

/-- The segments of a query are in the order of the clauses. -/
lemma sublist_segments (s : Select) : (s.segments.map (·.1)).Sublist Clause.all := by
  have hoption : ∀ {α : Type} (o : Option α) (k : Clause) (g : α → String),
      ((o.map fun a => (k, g a)).toList.map (·.1)).Sublist [k] := by
    intro α o k g
    cases o <;> simp
  rw [Select.segments, List.map_map, Select.clauses]
  simp only [List.map_append]
  exact ((((hoption _ _ _).append (hoption _ _ _)).append (hoption _ _ _)).append (hoption _ _ _)).append
    (hoption _ _ _)

/-! ## Bodies -/

/-- The text of a filter is read back. -/
lemma parseFilter_eq {f : Filter} (hc : IsName f.column) (hl : IsLiteral f.literal) :
    parseFilter (f.column ++ " = " ++ f.literal).toList = .ok f := by
  have hcolumn := isText_name hc.1
  have hliteral := (isText_literal hl).1
  have hne : ∀ d, IsTokenChar d → d ≠ '=' := fun _ hd => hd.2.2
  have htext : (f.column ++ " = " ++ f.literal).toList =
      (f.column.toList ++ [' ']) ++ '=' :: (' ' :: f.literal.toList) := by
    simp
  have hbefore : Balanced (· ≠ '=') (f.column.toList ++ [' ']) :=
    (hcolumn.balanced.mono hne).append (.plain (by decide) (by decide) .nil)
  have hparts : splitTop '=' (f.column ++ " = " ++ f.literal).toList =
      [f.column.toList, f.literal.toList] := by
    rw [htext, splitTop, cutAt_separated (by decide) hbefore,
      cutAt_balanced rfl (.plain (by decide) (by decide) (hliteral.balanced.mono hne)), List.map_cons,
      List.map_singleton, trim_append_space hcolumn.sharp.isTrimmed,
      trim_space_append hliteral.sharp.isTrimmed]
  simp only [parseFilter, hparts, identifier_toList hc.1, String.ofList_toList]
  rw [if_neg (by simpa using hliteral.sharp.ne_nil)]
  rfl

/-- The text of a limit is read back. -/
lemma parseLimit_eq {n : ℕ} (h : n < 2 ^ 64) : parseLimit (toString n).toList = .ok n := by
  obtain ⟨d, ds, hds⟩ := List.exists_cons_of_ne_nil (digits_ne_nil n)
  have hd : d.isDigit = true := isDigit_of_mem_digits (hds ▸ List.mem_cons_self)
  have hread : readUnsigned? (digits n) = some n := by
    rw [hds, readUnsigned?.eq_2 _ fun _ heq => ne_of_isDigit hd rfl (List.cons.inj heq).1, ← hds,
      readNat?_digits]
  rw [parseLimit, toList_toString_nat, hread, Option.filter_some, if_pos (by simpa using h)]

/-- The text of a ranking is read back. -/
lemma parseRanking_eq {r : Ranking} (hc : IsName r.column) (hx : ∀ x ∈ r.vector, x.isFinite = true) :
    parseRanking (r.column ++ " WITH " ++ renderFloats r.vector).toList = .ok r := by
  have htext : (r.column ++ " WITH " ++ renderFloats r.vector).toList =
      r.column.toList ++ ' ' :: (Keyword.with.word.toList ++ ' ' :: (renderFloats r.vector).toList) := by
    simp [Keyword.word]
  have hwith : require .with (r.column ++ " WITH " ++ renderFloats r.vector).toList =
      .ok (r.column.toList ++ [' '], ' ' :: (renderFloats r.vector).toList) := by
    rw [htext]
    exact require_eq (passes_name .with hc.1 (hc.ne .with) rfl) rfl
  have hvector : readVector (' ' :: (renderFloats r.vector).toList) = .ok r.vector := by
    simpa using readVector_renderFloats hx (a := [' ']) (z := []) (by decide) (by simp)
  refine bind_eq_ok_iff.2 ⟨_, hwith, bind_eq_ok_iff.2 ⟨_, identifier_append_space hc.1, ?_⟩⟩
  simp only [hvector]
  rfl

/-- A clause that may be absent is added if it is there. -/
lemma foldlM_option {α : Type} {o : Option α} {k : Clause} {body : α → String} {s t : Select}
    (hnone : o = none → s = t) (hsome : ∀ a, o = some a → addClause s k (body a).toList = .ok t) :
    ((o.map fun a => (k, body a)).toList.map fun c => (c.1, c.2.toList)).foldlM
      (fun s seg => addClause s seg.1 seg.2) s = .ok t := by
  cases o with
  | none =>
    cases hnone rfl
    rfl
  | some a => simp [hsome a rfl]

/-- The clauses of a `SELECT` make it up. -/
lemma addClauses_segments {s : Select} (h : s.IsPrintable) :
    s.segments.foldlM (fun s seg => addClause s seg.1 seg.2)
      ⟨s.table, s.projection, none, none, none, none, none⟩ = .ok s := by
  obtain ⟨table, projection, filter, groupBy, orderBy, limit, ranking⟩ := s
  obtain ⟨-, -, hfilter, hgroupBy, horderBy, hlimit, hranking⟩ := h
  have hnonempty : ∀ {body : List Char}, IsBody body → ¬body.isEmpty = true := fun h => by
    simpa using h.text.sharp.ne_nil
  have hname : ∀ {c : String}, IsName c → ¬c.toList.isEmpty = true := fun hc => by
    simpa using hc.isWord.sharp.ne_nil
  have hnonempty' : ∀ n : ℕ, ¬(toString n).toList.isEmpty = true := fun n => by
    rw [toList_toString_nat, List.isEmpty_iff]
    exact digits_ne_nil n
  simp only [Select.segments, Select.clauses, List.map_append, List.foldlM_append]
  -- the statement as it stands before each clause, from the last one to the first
  refine bind_eq_ok_iff.2 ⟨⟨table, projection, filter, groupBy, orderBy, limit, none⟩, bind_eq_ok_iff.2
    ⟨⟨table, projection, filter, groupBy, orderBy, none, none⟩, bind_eq_ok_iff.2
    ⟨⟨table, projection, filter, groupBy, none, none, none⟩, bind_eq_ok_iff.2
    ⟨⟨table, projection, filter, none, none, none, none⟩, ?_, ?_⟩, ?_⟩, ?_⟩, ?_⟩
  · refine foldlM_option (fun h => by rw [h]) fun f hf => ?_
    obtain ⟨hc, hl⟩ := hfilter f hf
    rw [addClause, if_neg (hnonempty (isBody_filter hc hl)), hf]
    simp only [parseFilter_eq hc hl]
    rfl
  · refine foldlM_option (fun h => by rw [h]) fun c hc => ?_
    rw [addClause, if_neg (hname (hgroupBy c hc)), hc]
    simp only [identifier_toList (hgroupBy c hc).1]
    rfl
  · refine foldlM_option (fun h => by rw [h]) fun c hc => ?_
    rw [addClause, if_neg (hname (horderBy c hc)), hc]
    simp only [identifier_toList (horderBy c hc).1]
    rfl
  · refine foldlM_option (fun h => by rw [h]) fun n hn => ?_
    rw [addClause, if_neg (hnonempty' n), hn]
    simp only [parseLimit_eq (hlimit n hn)]
    rfl
  · refine foldlM_option (fun h => by rw [h]) fun r hr => ?_
    obtain ⟨hc, hx⟩ := hranking r hr
    rw [addClause, if_neg (hnonempty (isBody_ranking hc hx)), hr]
    simp only [parseRanking_eq hc hx]
    rfl

/-- The clauses of a query in a row are their segments. -/
lemma toList_join_clauses (s : Select) :
    (String.join (s.clauses.map fun c => " " ++ c.1.keyword ++ " " ++ c.2)).toList =
      clausesText s.segments := by
  rw [Select.segments]
  induction s.clauses with
  | nil => rfl
  | cons c cs ih => simp [clausesText, ih]

/-- The text behind the space before the first clause. -/
lemma trim_clausesText {segs : List (Clause × List Char)} (h : ∀ s ∈ segs, IsBody s.2) :
    trim ((clausesText segs).drop 1) = (clausesText segs).drop 1 := by
  cases segs with
  | nil => rfl
  | cons seg segs =>
    obtain ⟨c, body⟩ := seg
    obtain ⟨hbody, hsegs⟩ := List.forall_mem_cons.1 h
    have htext := isText_clausesText hsegs ((isText_keyword c).spaced trivial hbody.text)
    simpa [clausesText] using trim_eq htext.sharp.isTrimmed

/-- The characters of a query are its words, its projection, its table and its clauses. -/
lemma toList_renderSelect (s : Select) : s.render.toList = "SELECT ".toList ++
    (s.projection.render.toList ++ ' ' :: ("FROM".toList ++
      ' ' :: (s.table.toList ++ clausesText s.segments))) := by
  simp only [Select.render, String.toList_append, toList_join_clauses]
  simp

/-- A name ends where the clauses begin. -/
lemma splitAt_clausesText {name : String} (h : IsBare name) (segs : List (Clause × List Char)) :
    (name.toList ++ clausesText segs).takeWhile (· != ' ') = name.toList ∧
    (name.toList ++ clausesText segs).dropWhile (· != ' ') = clausesText segs := by
  refine span_append (fun c hc => bne_iff_ne.2 (h.ne (by decide) c hc)) fun c hc => ?_
  cases segs with
  | nil => cases hc
  | cons =>
    cases hc
    rfl

/-- A `SELECT` is read back. -/
theorem parse_select {s : Select} (h : s.IsPrintable) : parse s.render = .ok (.select s) := by
  obtain ⟨hprojection, hpasses, hparse⟩ := parseProjection_render h.projection
  have hbodies := isBody_of_mem h
  obtain ⟨rest, hrest⟩ : ∃ rest, rest = s.table.toList ++ clausesText s.segments := ⟨_, rfl⟩
  have hwhole := toList_renderSelect s
  have htextRest : IsText (fun _ => True) rest :=
    hrest ▸ isText_clausesText hbodies (isText_name h.table.1).any
  obtain ⟨htable, hclauses⟩ := splitAt_clausesText h.table.isBare s.segments
  rw [← hrest] at hwhole htable hclauses
  have htext : IsText (fun _ => True) s.render.toList := by
    rw [hwhole]
    refine (isText_token (t := "SELECT") (by decide)).spaced trivial (hprojection.spaced trivial ?_)
    exact (isText_token (t := "FROM") (by decide)).spaced trivial htextRest
  -- no keyword stands in the projection, so the scan for `FROM` passes it
  have hfrom : require .from (s.projection.render.toList ++ ' ' :: ("FROM".toList ++ ' ' :: rest)) =
      .ok (s.projection.render.toList ++ [' '], ' ' :: rest) :=
    require_eq (hpasses _ rfl) rfl
  have htrimLeft : trimLeft (' ' :: rest) = rest := by
    rw [trimLeft, List.dropWhile_cons_of_pos (by decide), dropWhile_eq_self htextRest.sharp.isTrimmed.head]
  have hfirst : ((clausePlaces 0 s.segments).head?.map (·.1)).getD
      ((clausesText s.segments).drop 1).length = 0 := by
    cases s.segments <;> rfl
  have hselect :
      parseSelect (s.projection.render.toList ++ ' ' :: ("FROM".toList ++ ' ' :: rest)) = .ok s := by
    refine bind_eq_ok_iff.2 ⟨_, hfrom, bind_eq_ok_iff.2 ⟨_, hparse, bind_eq_ok_iff.2 ⟨s.table, ?_, ?_⟩⟩⟩
    · rw [htrimLeft, htable, identifier_toList h.table.1]
    · rw [htrimLeft, hclauses, trim_clausesText hbodies]
      -- the clauses are printed in the order in which they have to stand
      refine bind_eq_ok_iff.2 ⟨_, locateClauses_eq hbodies (sublist_segments s), ?_⟩
      rw [inOrder_clausePlaces, if_neg (by decide), if_neg (by rw [hfirst]; decide)]
      exact (addClauses_eq (n := 0) (fun seg hseg => (hbodies seg hseg).text.sharp) rfl).trans
        (addClauses_segments h)
  rw [(parse_of_text htext _).2.2.2 hwhole, hselect]
  rfl

/-- A statement is read back from its text. -/
theorem parse_render (padded : Bool) {s : Statement} (h : s.IsPrintable) :
    parse (s.render padded) = .ok s := by
  cases s with
  | createTable s => exact parse_createTable h
  | createIndex s => exact parse_createIndex h
  | insert s => exact h.parse_eq
  | select s => exact parse_select h

/-- A `SELECT` with every clause, columns named like keywords, and a literal that looks like clauses. -/
def searched : Statement := .select {
  table := "docs"
  projection := .columns ["id", "GROUP"]
  filter := some ⟨"author", quote " LIMIT 1;  ORDER BY ([= "⟩
  groupBy := some "GROUP"
  orderBy := some "BY"
  limit := some 5
  ranking := some ⟨"embedding", [.ofInt 1, .ofInt (-2)]⟩ }

/-- A query with every clause and with names and texts like keywords is parsed back. -/
theorem parse_render_searched :
    searched.render true = "SELECT id, GROUP FROM docs WHERE author = ' LIMIT 1;  ORDER BY ([= ' " ++
      "GROUP BY GROUP ORDER BY BY LIMIT 5 COSINE SIMILARITY embedding WITH [1.0, -2.0]" ∧
    searched.IsPrintable ∧ parse (searched.render true) = .ok searched := by
  have h : searched.IsPrintable := by
    refine ⟨by decide, ?_, ?_, ?_, ?_, ?_, ?_⟩
    · rintro _ ⟨⟩
      decide
    · rintro _ ⟨⟩
      exact ⟨by decide, .quoted (by decide)⟩
    · rintro _ ⟨⟩
      decide
    · rintro _ ⟨⟩
      decide
    · rintro _ ⟨⟩
      decide
    · rintro _ ⟨⟩
      decide +kernel
  exact ⟨by decide +kernel, h, parse_render true h⟩

end ProvenTables.Sql
