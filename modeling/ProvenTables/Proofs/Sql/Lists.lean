import ProvenTables.Proofs.Sql.Rendering

/-!
# Reading back lists

Lists in parentheses are read back, and with them the statements that consist of names and such lists
(`parse_createTable`, `parse_createIndex`, `parse_insert`); and so are vectors of finite numbers
(`readVector_renderFloats`).
-/

namespace ProvenTables.Sql

open Text

variable {Q : Char → Prop} {padded : Bool} {items : List String}

/-! ## Names and lists -/

/-- An identifier is read, blanks at the ends apart. -/
lemma identifier_eq {cs : List Char} {name : String} (h : isIdentifier name.toList = true)
    (hcs : trim cs = name.toList) : identifier cs = .ok name := by
  rw [identifier, hcs, String.ofList_toList, if_pos h]

/-- An identifier is a text without commas. -/
lemma isText_name {name : String} (h : isIdentifier name.toList = true) : IsText IsTokenChar name.toList :=
  isText_bare (isBare_of_isIdentifier h)

/-- An identifier is read as its name. -/
lemma identifier_toList {name : String} (h : isIdentifier name.toList = true) :
    identifier name.toList = .ok name :=
  identifier_eq h (trim_eq (isText_name h).sharp.isTrimmed)

/-- An identifier with a blank after it is read as its name. -/
lemma identifier_append_space {name : String} (h : isIdentifier name.toList = true) :
    identifier (name.toList ++ [' ']) = .ok name :=
  identifier_eq h (trim_append_space (isText_name h).sharp.isTrimmed)

/-- Texts that are joined have no blanks at the ends. -/
lemma isTrimmed_joined (h : ∀ i ∈ items, IsText Q i.toList) : IsTrimmed (joined items) := by
  rcases joined_eq_nil_or h with hnil | htext
  · exact hnil ▸ isTrimmed_nil
  · exact htext.sharp.isTrimmed

/-- A list in parentheses is read as one group before the others. -/
lemma groupsFrom_parenthesized (padded : Bool) (h : ∀ i ∈ items, IsText Q i.toList) (r : List Char) :
    groupsFrom (.between false) ((parenthesized padded items).toList ++ r) =
      (joined items :: ·) <$> groupsFrom (.between true) r := by
  obtain ⟨body, hbody⟩ : ∃ body, body =
      if padded ∧ joined items ≠ [] then ' ' :: (joined items ++ [' ']) else joined items := ⟨_, rfl⟩
  have hbalanced : Balanced (fun _ => True) body := by
    have hjoined : Balanced (fun _ => True) (joined items) := by
      rcases joined_eq_nil_or h with hnil | htext
      · exact hnil ▸ .nil
      · exact htext.balanced
    rw [hbody]
    split
    · exact .plain (by decide) trivial (hjoined.append (.plain (by decide) trivial .nil))
    · exact hjoined
  have htrim : trim body = joined items := by
    rw [hbody]
    split
    · exact trim_append (a := [' ']) (isTrimmed_joined h) (by decide) (by decide)
    · exact trim_eq (isTrimmed_joined h)
  rw [toList_parenthesized, ← hbody, List.cons_append, List.append_assoc]
  change groupsFrom (.inside false 0 []) (body ++ ([')'] ++ r)) = _
  rw [groupsFrom_append hbalanced, List.append_nil, List.singleton_append]
  change (do
    let rest ← groupsFrom (.between true) r
    return trim body.reverse.reverse :: rest) = _
  rw [List.reverse_reverse, htrim]
  rfl

/-- The text of groups with commas and spaces between them. -/
lemma groups_separated {rows : List (List String)} (hne : rows ≠ [])
    (h : ∀ r ∈ rows, ∀ v ∈ r, IsText Q v.toList) :
    groups (joined (rows.map (parenthesized padded))) = .ok (rows.map joined) := by
  induction rows with
  | nil => exact absurd rfl hne
  | cons row rows ih =>
    obtain ⟨hrow, hrows⟩ := List.forall_mem_cons.1 h
    cases rows with
    | nil =>
      have hgroup := groupsFrom_parenthesized padded hrow []
      rw [List.append_nil] at hgroup
      rw [groups, joined, List.map_singleton, List.map_singleton, List.intercalate_singleton, hgroup]
      rfl
    | cons row' rows =>
      have hrest := ih (List.cons_ne_nil _ _) hrows
      have hnext : ∀ r, groupsFrom (.between true) (',' :: ' ' :: r) = groupsFrom (.between false) r :=
        fun r => rfl
      rw [groups] at hrest ⊢
      rw [joined, List.map_cons, List.map_cons, List.map_cons, List.map_cons, List.intercalate_cons_cons,
        List.append_assoc, groupsFrom_parenthesized padded hrow, List.cons_append, List.cons_append,
        List.nil_append, hnext]
      rw [joined, List.map_cons, List.map_cons] at hrest
      rw [hrest]
      rfl

/-- A list in parentheses is read as the only group. -/
lemma soleGroup_eq {z : List Char} (h : ∀ i ∈ items, IsText Q i.toList)
    (hz : ∀ c ∈ z, isBlank c = true) :
    soleGroup ((parenthesized padded items).toList ++ z) = .ok (joined items) := by
  have htext : IsText (fun _ => True) (parenthesized padded items).toList := isText_parenthesized h
  have htrim : trim ((parenthesized padded items).toList ++ z) = (parenthesized padded items).toList :=
    trim_append (a := []) htext.sharp.isTrimmed (by simp) hz
  have hgroup : groups (parenthesized padded items).toList = .ok [joined items] := by
    have := groupsFrom_parenthesized padded h []
    rw [List.append_nil] at this
    exact this
  have hends : (parenthesized padded items).toList.head? = some '(' ∧
      (parenthesized padded items).toList.getLast? = some ')' := by
    rw [toList_parenthesized]
    exact ⟨rfl, by rw [← List.cons_append, List.getLast?_concat]⟩
  rw [soleGroup, htrim, hgroup]
  change (if _ then (.ok (joined items) : Except ParseError _) else _) = _
  rw [if_pos hends]

/-- A name and a list, with blanks around them. -/
lemma nameAndList_eq (padded : Bool) {a z : List Char} {name : String}
    (hname : isIdentifier name.toList = true)
    (h : ∀ i ∈ items, IsText Q i.toList) (ha : ∀ c ∈ a, c = ' ') (hz : ∀ c ∈ z, c = ' ') :
    nameAndList (a ++ (name.toList ++ ' ' :: ((parenthesized padded items).toList ++ z))) =
      .ok (name, joined items) := by
  have hblank : ∀ l : List Char, (∀ c ∈ l, c = ' ') → ∀ c ∈ l, isBlank c = true :=
    fun l hl c hc => hl c hc ▸ rfl
  have htext := isText_name hname
  -- no bracket comes before the list's own, so the name is what stands before the first one
  have hbefore : ∀ c ∈ a ++ (name.toList ++ [' ']), (c != '(') = true := by
    intro c hc
    simp only [List.mem_append, List.mem_singleton] at hc
    rcases hc with hc | hc | rfl
    · exact ha c hc ▸ rfl
    · exact bne_iff_ne.2 ((isBare_of_isIdentifier hname).ne (by decide) c hc)
    · rfl
  obtain ⟨inner, hinner⟩ : ∃ inner, (parenthesized padded items).toList = '(' :: inner :=
    ⟨_, toList_parenthesized padded items⟩
  have hwhole : a ++ (name.toList ++ ' ' :: ((parenthesized padded items).toList ++ z)) =
      (a ++ (name.toList ++ [' '])) ++ ((parenthesized padded items).toList ++ z) := by
    simp
  obtain ⟨htake, hdrop⟩ := span_append (b := (parenthesized padded items).toList ++ z) hbefore (by
    rw [hinner]
    rintro _ ⟨⟩
    rfl)
  have hidentifier : identifier (a ++ (name.toList ++ [' '])) = .ok name :=
    identifier_eq hname (trim_append htext.sharp.isTrimmed (hblank a ha) (by decide))
  rw [hwhole]
  simp only [nameAndList, htake, hdrop, hidentifier, soleGroup_eq h (hblank z hz)]
  rw [hinner]
  rfl

/-- Texts without commas are found again when they have been joined. -/
lemma splitTop_joined (hne : items ≠ []) (h : ∀ i ∈ items, IsText (· ≠ ',') i.toList) :
    splitTop ',' (joined items) = items.map String.toList :=
  splitTop_intercalate (by decide) (by decide) (by simpa using hne) (by
    simpa using fun i hi => ⟨(h i hi).balanced, (h i hi).sharp.isTrimmed⟩)

/-- A character of a token is no comma. -/
lemma IsTokenChar.ne_comma {c : Char} (h : IsTokenChar c) : c ≠ ',' := h.2.1

/-- Names that have been joined are read back. -/
lemma mapM_identifier (hne : items ≠ []) (h : ∀ i ∈ items, isIdentifier i.toList = true) :
    (splitTop ',' (joined items)).mapM identifier = .ok items := by
  rw [splitTop_joined hne fun i hi => (isText_name (h i hi)).mono fun _ => IsTokenChar.ne_comma]
  exact mapM_map_eq_ok fun i hi => identifier_toList (h i hi)

/-! ## Definitions -/

/-- A bare word is a text. -/
lemma isText_token {t : String} (h : IsBare t) : IsText (fun _ => True) t.toList :=
  (isText_bare h).mono fun _ _ => trivial

/-- A text with any property is a text. -/
lemma IsText.any {P : Char → Prop} {a : List Char} (h : IsText P a) : IsText (fun _ => True) a :=
  h.mono fun _ _ => trivial

/-- Two words and a text behind them. -/
lemma isText_words {a b : String} (ha : IsBare a) (hb : IsBare b) {r : List Char}
    (hr : IsText (fun _ => True) r) : IsText (fun _ => True) (a.toList ++ ' ' :: (b.toList ++ ' ' :: r)) :=
  (isText_token ha).spaced trivial ((isText_token hb).spaced trivial hr)

/-- A text that begins with the words of a statement is parsed as such a statement. -/
lemma parse_of_text {sql : String} (h : IsText (fun _ => True) sql.toList) (rest : List Char) :
    (sql.toList = "CREATE TABLE ".toList ++ rest → parse sql = (parseCreateTable rest).map .createTable) ∧
    (sql.toList = "CREATE INDEX ".toList ++ rest → parse sql = (parseCreateIndex rest).map .createIndex) ∧
    (sql.toList = "INSERT INTO ".toList ++ rest → parse sql = (parseInsert rest).map .insert) ∧
    (sql.toList = "SELECT ".toList ++ rest → parse sql = (parseSelect rest).map .select) := by
  have hsqueeze := squeeze_eq h.tidy h.sharp
  refine ⟨?_, ?_, ?_, ?_⟩ <;> intro htext <;> rw [parse, hsqueeze, htext] <;> rfl

/-- The name of a type is a text without commas. -/
lemma isText_typeName (t : ColumnType) : IsText IsTokenChar t.name.toList := by
  have hsimple : ∀ name : String, IsBare name → IsText IsTokenChar name.toList := fun _ => isText_bare
  cases t with
  | floats =>
    have hlist : IsBare "list" := by decide
    have hfloat : IsBare "float" := by decide
    exact (isText_bare hlist).append (.nested (k := ']') rfl rfl (.inr (isText_bare hfloat)) false)
  | _ => exact hsimple _ (by decide)

/-- The name of a type spells the type. -/
lemma ofSpelling?_name (t : ColumnType) : ColumnType.ofSpelling? t.name = some t := by
  cases t <;> rfl

/-- A definition is the name of the column and the name of its type. -/
lemma toList_definition (c : Column) :
    (c.name ++ " " ++ c.type.name).toList = c.name.toList ++ ' ' :: c.type.name.toList := by
  simp

/-- A definition is read as its column, if its name is new. -/
lemma definition_eq {earlier : List Column} {c : Column} (hname : isIdentifier c.name.toList = true)
    (hnew : c.name ∉ earlier.map (·.name)) :
    definition earlier (c.name ++ " " ++ c.type.name).toList = .ok c := by
  have hspaceName : ∀ d ∈ c.name.toList, (d == ' ') = false := fun d hd =>
    beq_false_of_ne ((isBare_of_isIdentifier hname).ne (by decide) d hd)
  have hspaceType : ∀ d ∈ c.type.name.toList, (d == ' ') = false := by
    cases c.type <;> decide
  have hparts : splitBy (· == ' ') (c.name ++ " " ++ c.type.name).toList =
      [c.name.toList, c.type.name.toList] := by
    rw [toList_definition, splitBy_append hspaceName rfl, splitBy_eq_singleton hspaceType]
  have hfresh : earlier.any (·.name == c.name) = false := by
    simpa [List.any_eq_false] using hnew
  simp only [definition, hparts, identifier_toList hname, String.ofList_toList, ofSpelling?_name]
  exact if_neg (Bool.eq_false_iff.1 hfresh)

/-- Definitions with different names are read as their columns. -/
lemma foldlM_definition {earlier columns : List Column}
    (hnames : ∀ c ∈ columns, isIdentifier c.name.toList = true)
    (hdistinct : ((earlier ++ columns).map (·.name)).Nodup) :
    (columns.map fun c => (c.name ++ " " ++ c.type.name).toList).foldlM
      (fun earlier part => return earlier ++ [← definition earlier part]) earlier =
        .ok (earlier ++ columns) := by
  induction columns generalizing earlier with
  | nil =>
    rw [List.append_nil]
    rfl
  | cons c columns ih =>
    obtain ⟨hname, hnames⟩ := List.forall_mem_cons.1 hnames
    have hnew : c.name ∉ earlier.map (·.name) := by
      intro hmem
      rw [List.map_append, List.map_cons] at hdistinct
      exact (List.disjoint_of_nodup_append hdistinct) hmem List.mem_cons_self
    rw [List.append_cons] at hdistinct ⊢
    rw [List.map_cons, List.foldlM_cons, definition_eq hname hnew]
    exact ih hnames hdistinct

/-- A `CREATE TABLE` is read back if its columns are distinct. -/
theorem parse_createTable {s : CreateTable} (h : s.IsPrintable) :
    parse (s.render padded) = .ok (.createTable s) := by
  obtain ⟨table, columns⟩ := s
  obtain ⟨htable, hne, hcolumns, hdistinct⟩ := h
  obtain ⟨items, hitems⟩ : ∃ items, items = columns.map fun c => c.name ++ " " ++ c.type.name := ⟨_, rfl⟩
  have htexts : ∀ i ∈ items, IsText (· ≠ ',') i.toList := by
    rw [hitems]
    intro i hi
    obtain ⟨c, hc, rfl⟩ := List.mem_map.1 hi
    rw [toList_definition]
    exact ((isText_name (hcolumns c hc).1).mono fun _ => IsTokenChar.ne_comma).spaced (by decide)
      ((isText_typeName c.type).mono fun _ => IsTokenChar.ne_comma)
  have hdefinitions : (splitTop ',' (joined items)).foldlM
      (fun earlier part => return earlier ++ [← definition earlier part]) [] = .ok columns := by
    rw [splitTop_joined (by simpa [hitems] using hne) htexts, hitems, List.map_map]
    exact foldlM_definition (fun c hc => (hcolumns c hc).1) hdistinct
  have hwhole : (CreateTable.render padded ⟨table, columns⟩).toList =
      "CREATE TABLE ".toList ++ (table.toList ++ ' ' :: (parenthesized padded items).toList) := by
    simp [CreateTable.render, hitems]
  have htext : IsText (fun _ => True) (CreateTable.render padded ⟨table, columns⟩).toList :=
    hwhole ▸ isText_words (a := "CREATE") (b := "TABLE") (by decide) (by decide)
      ((isText_name htable.1).any.spaced trivial (isText_parenthesized htexts))
  have hlist := nameAndList_eq padded (a := []) (z := []) htable.1 htexts (by simp) (by simp)
  rw [List.append_nil, List.nil_append] at hlist
  have hparse : parseCreateTable (table.toList ++ ' ' :: (parenthesized padded items).toList) =
      .ok ⟨table, columns⟩ :=
    bind_eq_ok_iff.2 ⟨_, hlist, bind_eq_ok_iff.2 ⟨_, hdefinitions, rfl⟩⟩
  rw [(parse_of_text htext _).1 hwhole, hparse]
  rfl

/-- Words before a keyword that are no keyword themselves. -/
lemma passes_name (k : Keyword) {name : String} {rest : List Char} (h : isIdentifier name.toList = true)
    (hne : name ≠ k.word) (hrest : endsWord rest = true) : Passes k.word.toList name.toList rest := by
  refine passes_word (isKeyword_word k) ((isText_name h).mono fun _ hc => hc.1) ?_
  exact beginsWith_eq_false (isUnbroken_bare (isBare_of_isIdentifier h)) (isUnbroken_word k) hrest
    fun heq => hne (String.toList_inj.1 heq)

/-- One text that is joined is the text. -/
lemma joined_singleton (t : String) : joined [t] = t.toList := List.intercalate_singleton

/-- A `CREATE INDEX` is read back. -/
theorem parse_createIndex {s : CreateIndex} (h : s.IsPrintable) :
    parse (s.render padded) = .ok (.createIndex s) := by
  obtain ⟨index, table, column⟩ := s
  obtain ⟨hindex, htable, hcolumn⟩ := h
  have hitem : ∀ i ∈ [column], IsText IsTokenChar i.toList :=
    List.forall_mem_singleton.2 (isText_name hcolumn.1)
  -- the text is cut at `ON`, with the index before it and the table and column after it
  obtain ⟨rest, hrest⟩ :
      ∃ rest, rest = ' ' :: (table.toList ++ ' ' :: (parenthesized padded [column]).toList) :=
    ⟨_, rfl⟩
  have hwhole : (CreateIndex.render padded ⟨index, table, column⟩).toList =
      "CREATE INDEX ".toList ++ (index.toList ++ ' ' :: ("ON".toList ++ rest)) := by
    simp [CreateIndex.render, hrest]
  have htext : IsText (fun _ => True) (CreateIndex.render padded ⟨index, table, column⟩).toList := by
    rw [hwhole, hrest]
    refine isText_words (a := "CREATE") (b := "INDEX") (by decide) (by decide) ?_
    refine (isText_name hindex.1).any.spaced trivial ?_
    refine (isText_token (t := "ON") (by decide)).spaced trivial ?_
    exact (isText_name htable.1).any.spaced trivial (isText_parenthesized hitem)
  have hon :
      require .on (index.toList ++ ' ' :: ("ON".toList ++ rest)) = .ok (index.toList ++ [' '], rest) :=
    require_eq (passes_name .on hindex.1 (fun h => hindex.2 (by simp [h, Keyword.word])) rfl) (hrest ▸ rfl)
  have hlist : nameAndList rest = .ok (table, joined [column]) := by
    have := nameAndList_eq padded (a := [' ']) (z := []) htable.1 hitem (by simp) (by simp)
    rwa [List.append_nil, List.singleton_append, ← hrest] at this
  have hcolumn' : identifier (joined [column]) = .ok column := by
    rw [joined_singleton, identifier_toList hcolumn.1]
  have hparse : parseCreateIndex (index.toList ++ ' ' :: ("ON".toList ++ rest)) =
      .ok ⟨index, table, column⟩ :=
    bind_eq_ok_iff.2 ⟨_, hon, bind_eq_ok_iff.2 ⟨_, identifier_append_space hindex.1,
      bind_eq_ok_iff.2 ⟨_, hlist, bind_eq_ok_iff.2 ⟨_, hcolumn', rfl⟩⟩⟩⟩
  rw [(parse_of_text htext _).2.1 hwhole, hparse]
  rfl

/-! ## Values -/

/-- A value is a text without commas. -/
lemma isText_value {v : String} (h : IsValue v) : IsText IsTokenChar v.toList := by
  cases h with
  | bare h => exact isText_bare h
  | quoted h => exact isText_quote h
  | list h => exact isText_bracketed fun t ht => isText_bare (h t ht)

/-- A row of values is read back as its literals. -/
lemma literals_joined {row : List String} (h : ∀ v ∈ row, IsText (· ≠ ',') v.toList) :
    literals (joined row) = row := by
  rcases eq_or_ne row [] with rfl | hne
  · rfl
  · have hsharp : joined row ≠ [] :=
      (isText_joined trivial trivial hne fun v hv => (h v hv).any).sharp.ne_nil
    rw [literals, if_neg (by simpa using hsharp), splitTop_joined hne h, List.map_map]
    simp [Function.comp_def]

/-- Rows of values are read back as their literals. -/
lemma map_literals {rows : List (List String)} (h : ∀ r ∈ rows, ∀ v ∈ r, IsText (· ≠ ',') v.toList) :
    (rows.map joined).map literals = rows := by
  rw [List.map_map]
  exact (List.map_congr_left fun r hr => literals_joined (h r hr)).trans (List.map_id _)

/-- The keyword behind a table and its columns is found. -/
lemma require_values {table : String} {columns : List String} {rest : List Char}
    (htable : isIdentifier table.toList = true) (hname : table ≠ "VALUES")
    (hcolumns : ∀ c ∈ columns, IsText Q c.toList) (hrest : endsWord rest = true) :
    require .values ((table.toList ++ ' ' :: (parenthesized padded columns).toList) ++
        ' ' :: ("VALUES".toList ++ rest)) =
      .ok ((table.toList ++ ' ' :: (parenthesized padded columns).toList) ++ [' '], rest) := by
  refine require_eq ?_ hrest
  refine (passes_name .values htable hname rfl).spaced (isKeyword_word _) ?_
  refine passes_word (isKeyword_word _) (isText_parenthesized hcolumns) ?_
  rw [toList_parenthesized]
  exact beginsWith_cons_eq_false (isKeyword_word _) rfl

/-- An `INSERT` is read back, also if some of its names are keywords. -/
theorem parse_insert {s : Insert} (htable : isIdentifier s.table.toList = true) (hname : s.table ≠ "VALUES")
    (hne : s.columns ≠ []) (hcolumns : ∀ c ∈ s.columns, isIdentifier c.toList = true) (hrows : s.rows ≠ [])
    (hvalues : ∀ r ∈ s.rows, ∀ v ∈ r, IsValue v) : parse (s.render padded) = .ok (.insert s) := by
  obtain ⟨table, columns, rows⟩ := s
  have hitems : ∀ i ∈ columns, IsText IsTokenChar i.toList := fun i hi => isText_name (hcolumns i hi)
  have htexts : ∀ r ∈ rows, ∀ v ∈ r, IsText IsTokenChar v.toList := fun r hr v hv =>
    isText_value (hvalues r hr v hv)
  -- the text is cut at `VALUES`, with the table and columns before it and the rows after it
  obtain ⟨rest, hrest⟩ : ∃ rest, rest = ' ' :: joined (rows.map (parenthesized padded)) := ⟨_, rfl⟩
  obtain ⟨head, hhead⟩ :
      ∃ head, head = table.toList ++ ' ' :: (parenthesized padded columns).toList := ⟨_, rfl⟩
  have hwhole : (Insert.render padded ⟨table, columns, rows⟩).toList =
      "INSERT INTO ".toList ++ (head ++ ' ' :: ("VALUES".toList ++ rest)) := by
    simp [Insert.render, hrest, hhead, joined]
  have hrow : ∀ i ∈ rows.map (parenthesized padded), IsText (fun _ => True) i.toList := by
    intro i hi
    obtain ⟨r, hr, rfl⟩ := List.mem_map.1 hi
    exact isText_parenthesized (htexts r hr)
  have htext : IsText (fun _ => True) (Insert.render padded ⟨table, columns, rows⟩).toList := by
    rw [hwhole, hrest, hhead]
    refine isText_words (a := "INSERT") (b := "INTO") (by decide) (by decide) ?_
    refine ((isText_name htable).any.spaced trivial (isText_parenthesized hitems)).spaced trivial ?_
    refine (isText_token (t := "VALUES") (by decide)).spaced trivial ?_
    exact isText_joined trivial trivial (by simpa using hrows) hrow
  have hvalues :
      require .values (head ++ ' ' :: ("VALUES".toList ++ rest)) = .ok (head ++ [' '], rest) :=
    hhead ▸ require_values htable hname hitems (hrest ▸ rfl)
  have hlist : nameAndList (head ++ [' ']) = .ok (table, joined columns) := by
    have := nameAndList_eq padded (a := []) (z := [' ']) htable hitems (by simp) (by simp)
    rwa [List.nil_append, ← List.cons_append, ← List.append_assoc, ← hhead] at this
  have hgroups : groups rest = .ok (rows.map joined) := by
    rw [hrest]
    exact groups_separated hrows htexts
  have hliterals : (rows.map joined).map literals = rows :=
    map_literals fun r hr v hv => (htexts r hr v hv).mono fun _ => IsTokenChar.ne_comma
  have hparse : parseInsert (head ++ ' ' :: ("VALUES".toList ++ rest)) = .ok ⟨table, columns, rows⟩ :=
    bind_eq_ok_iff.2 ⟨_, hvalues, bind_eq_ok_iff.2 ⟨_, hlist, bind_eq_ok_iff.2 ⟨_,
      mapM_identifier hne hcolumns, bind_eq_ok_iff.2 ⟨_, hgroups, by rw [hliterals]; rfl⟩⟩⟩⟩
  rw [(parse_of_text htext _).2.2.1 hwhole, hparse]
  rfl

/-- An insertion that can be printed is parsed back. -/
lemma Insert.IsPrintable.parse_eq {s : Insert} (h : s.IsPrintable) :
    parse (s.render padded) = .ok (.insert s) :=
  parse_insert h.table.1 (fun hname => h.table.2 (by simp [hname])) h.nonempty
    (fun c hc => (h.columns c hc).1) h.rows h.values

/-! ## Vectors -/

/-- The parts between the commas of a list are its items, with blanks before them. -/
lemma forall₂_splitBy {z : List Char} (hz : ∀ c ∈ z, c = ' ') (hne : items ≠ [])
    (h : ∀ i ∈ items, IsBare i) :
    List.Forall₂ (fun part i => trim part = i.toList) (splitBy (· == ',') (z ++ joined items)) items := by
  induction items generalizing z with
  | nil => exact absurd rfl hne
  | cons i items ih =>
    obtain ⟨hi, hitems⟩ := List.forall_mem_cons.1 h
    have hblank : ∀ c ∈ z, isBlank c = true := fun c hc => hz c hc ▸ rfl
    have htrim : trim (z ++ i.toList) = i.toList := by
      simpa using trim_append (b := []) (isText_bare hi).sharp.isTrimmed hblank (by simp)
    have hcomma : ∀ c ∈ z ++ i.toList, (c == ',') = false := by
      intro c hc
      rcases List.mem_append.1 hc with hc | hc
      · exact hz c hc ▸ rfl
      · exact beq_false_of_ne (hi.ne (by decide) c hc)
    cases items with
    | nil =>
      rw [joined_singleton, splitBy_eq_singleton hcomma]
      exact .cons htrim .nil
    | cons i' items =>
      have htext : z ++ joined (i :: i' :: items) =
          (z ++ i.toList) ++ ',' :: ([' '] ++ joined (i' :: items)) := by
        simp [joined, List.intercalate_cons_cons]
      rw [htext, splitBy_append hcomma rfl]
      exact .cons htrim (ih (z := [' ']) (by simp) (List.cons_ne_nil _ _) hitems)

/-- A vector of finite numbers is read back, with blanks around it. -/
theorem readVector_renderFloats {xs : List Binary64} (h : ∀ x ∈ xs, x.isFinite = true) {a z : List Char}
    (ha : ∀ c ∈ a, isBlank c = true) (hz : ∀ c ∈ z, isBlank c = true) :
    readVector (a ++ ((renderFloats xs).toList ++ z)) = .ok xs := by
  obtain ⟨items, hitems⟩ : ∃ items, items = xs.map (·.render .text) := ⟨_, rfl⟩
  have hbare : ∀ i ∈ items, IsBare i := by
    rw [hitems]
    intro i hi
    obtain ⟨x, hx, rfl⟩ := List.mem_map.1 hi
    exact isBare_render (h x hx)
  have htext : (renderFloats xs).toList = '[' :: (joined items ++ [']']) := by
    simp [renderFloats, bracketed, joined, hitems]
  have hinside : insideBrackets? (renderFloats xs).toList = some (joined items) := by
    rw [htext]
    simp [insideBrackets?]
  have hsharp : IsText (fun _ => True) (renderFloats xs).toList := by
    rw [renderFloats, ← hitems]
    exact isText_bracketed fun i hi => isText_bare (hbare i hi)
  have htrim : trim (joined items) = joined items :=
    trim_eq (isTrimmed_joined fun i hi => isText_bare (hbare i hi))
  simp only [readVector, trim_append hsharp.sharp.isTrimmed ha hz, hinside, htrim]
  -- an empty list has no components, while the text inside its brackets would be cut into one
  rcases eq_or_ne xs [] with rfl | hne
  · rw [hitems]
    rfl
  · have hne' : items ≠ [] := by simpa [hitems] using hne
    have hinner : joined items ≠ [] :=
      (isText_joined trivial trivial hne' fun i hi => (isText_bare (hbare i hi)).any).sharp.ne_nil
    have hparts := forall₂_splitBy (z := []) (by simp) hne' hbare
    rw [List.nil_append] at hparts
    rw [if_neg (by simpa using hinner), mapM_eq_ok_iff]
    rw [hitems, List.forall₂_map_right_iff, ← hitems, List.forall₂_iff_zip] at hparts
    refine List.forall₂_iff_zip.2 ⟨hparts.1, fun {part x} hmem => ?_⟩
    rw [readComponent, hparts.2 hmem, Binary64.readFinite?_render (h x (List.of_mem_zip hmem).2)]

end ProvenTables.Sql
