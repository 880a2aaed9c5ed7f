import ProvenTables.Proofs.Binary64.Text
import ProvenTables.Proofs.Sql.Clauses

/-!
# Writing statements

Statements in the grammar of the dialect, with single spaces between their parts. Which statements can be
written so that they are read back: names that no keyword search finds, and literals in quotes, bare ones
and lists of bare ones in brackets.
-/

namespace ProvenTables.Sql

open Text

/-! ## Texts -/

/-- Items in parentheses, with spaces at their inner sides if `padded`. -/
def parenthesized (padded : Bool) (items : List String) : String :=
  let inner := ", ".intercalate items
  "(" ++ (if padded ∧ inner ≠ "" then " " ++ inner ++ " " else inner) ++ ")"

/-- The text of a definition of a table. -/
def CreateTable.render (padded : Bool) (s : CreateTable) : String :=
  "CREATE TABLE " ++ s.table ++ " " ++
    parenthesized padded (s.columns.map fun c => c.name ++ " " ++ c.type.name)

/-- The text of a definition of an index. -/
def CreateIndex.render (padded : Bool) (s : CreateIndex) : String :=
  "CREATE INDEX " ++ s.index ++ " ON " ++ s.table ++ " " ++ parenthesized padded [s.column]

/-- The text of an insertion. -/
def Insert.render (padded : Bool) (s : Insert) : String :=
  "INSERT INTO " ++ s.table ++ " " ++ parenthesized padded s.columns ++ " VALUES " ++
    ", ".intercalate (s.rows.map (parenthesized padded))

/-- The text of a projection. -/
def Projection.render : Projection → String
  | all => "*"
  | columns names => ", ".intercalate names

/-- The clauses of a `SELECT` in order, with their bodies. -/
def Select.clauses (s : Select) : List (Clause × String) :=
  (s.filter.map fun f => (.where, f.column ++ " = " ++ f.literal)).toList ++
  (s.groupBy.map fun c => (.groupBy, c)).toList ++
  (s.orderBy.map fun c => (.orderBy, c)).toList ++
  (s.limit.map fun n => (.limit, toString n)).toList ++
  (s.ranking.map fun r => (.similarity, r.column ++ " WITH " ++ renderFloats r.vector)).toList

/-- The text of a query, with its clauses in order. -/
def Select.render (s : Select) : String :=
  "SELECT " ++ s.projection.render ++ " FROM " ++ s.table ++
    String.join (s.clauses.map fun c => " " ++ c.1.keyword ++ " " ++ c.2)

/-- The text of a statement; `padded` says whether there are spaces at the inner sides of parentheses. -/
def Statement.render (padded : Bool) : Statement → String
  | createTable s => s.render padded
  | createIndex s => s.render padded
  | insert s => s.render padded
  | select s => s.render

/-! ## Statements that are read back -/

/-- Whether a text is an identifier that no keyword search takes for a keyword. -/
def IsName (name : String) : Prop :=
  isIdentifier name.toList = true ∧ name ∉ ["FROM", "ON", "VALUES", "WHERE", "LIMIT", "WITH"]

/-- Whether a name can be printed can be decided. -/
instance (name : String) : Decidable (IsName name) := by unfold IsName; infer_instance

/-- Whether a character is an ASCII letter or digit or one of `_`, `.`, `+` and `-`. -/
def isBareChar (c : Char) : Bool := c.isAlphanum || c == '_' || c == '.' || c == '+' || c == '-'

/-- Whether a text is a bare token. -/
def IsBare (t : String) : Prop := t ≠ "" ∧ t.toList.all isBareChar = true

/-- Whether a word is bare can be decided. -/
instance (t : String) : Decidable (IsBare t) := by unfold IsBare; infer_instance

/-- The literal of a string. -/
def quote (v : String) : String := "'" ++ v ++ "'"

/-- Literals of a comparison. -/
inductive IsLiteral : String → Prop
  | bare {t} : IsBare t → t ≠ "WHERE" → t ≠ "LIMIT" → IsLiteral t
  | quoted {v} : quoteMark ∉ v.toList → IsLiteral (quote v)

/-- Literals of new rows. -/
inductive IsValue : String → Prop
  | bare {t} : IsBare t → IsValue t
  | quoted {v} : quoteMark ∉ v.toList → IsValue (quote v)
  | list {items} : (∀ t ∈ items, IsBare t) → IsValue (bracketed items)

/-- A definition of a table that can be printed. -/
structure CreateTable.IsPrintable (s : CreateTable) : Prop where
  table : IsName s.table
  nonempty : s.columns ≠ []
  columns : ∀ c ∈ s.columns, IsName c.name
  distinct : (s.columns.map (·.name)).Nodup

/-- A definition of an index that can be printed. -/
structure CreateIndex.IsPrintable (s : CreateIndex) : Prop where
  index : IsName s.index
  table : IsName s.table
  column : IsName s.column

/-- An insertion that can be printed. -/
structure Insert.IsPrintable (s : Insert) : Prop where
  table : IsName s.table
  nonempty : s.columns ≠ []
  columns : ∀ c ∈ s.columns, IsName c
  rows : s.rows ≠ []
  values : ∀ r ∈ s.rows, ∀ v ∈ r, IsValue v

/-- A query that can be printed. -/
structure Select.IsPrintable (s : Select) : Prop where
  table : IsName s.table
  projection : ∀ names, s.projection = .columns names → names ≠ [] ∧ ∀ c ∈ names, IsName c
  filter : ∀ f, s.filter = some f → IsName f.column ∧ IsLiteral f.literal
  groupBy : ∀ c, s.groupBy = some c → IsName c
  orderBy : ∀ c, s.orderBy = some c → IsName c
  limit : ∀ n, s.limit = some n → n < 2 ^ 64
  ranking : ∀ r, s.ranking = some r → IsName r.column ∧ ∀ x ∈ r.vector, x.isFinite = true

/-- Whether a statement is read back from its text. -/
def Statement.IsPrintable : Statement → Prop
  | createTable s => s.IsPrintable
  | createIndex s => s.IsPrintable
  | insert s => s.IsPrintable
  | select s => s.IsPrintable

/-! ## Tokens -/

/-- Characters of which one belongs to a bare word and the other does not are different. -/
lemma ne_of_isBareChar {c k : Char} (hc : isBareChar c = true) (hk : isBareChar k = false) : c ≠ k := by
  rintro rfl
  rw [hc] at hk
  cases hk

/-- A letter is in the range of the ASCII letters. -/
lemma toNat_of_isAlpha {c : Char} (h : c.isAlpha = true) : 'A'.toNat ≤ c.toNat ∧ c.toNat ≤ 'z'.toNat := by
  have hcase : c.isUpper = true ∨ c.isLower = true := Bool.or_eq_true_iff.1 h
  rcases hcase with h | h
  · have hupper : 'A'.toNat ≤ c.toNat ∧ c.toNat ≤ 'Z'.toNat := of_decide_eq_true h
    exact ⟨hupper.1, hupper.2.trans (by decide)⟩
  · obtain ⟨ha, hz⟩ := Bool.and_eq_true_iff.1 h
    exact ⟨le_trans (by decide) (UInt32.le_iff_toNat_le.1 (of_decide_eq_true ha)),
      UInt32.le_iff_toNat_le.1 (of_decide_eq_true hz)⟩

/-- A character of a bare word is no blank. -/
lemma isBlank_of_isBareChar {c : Char} (h : isBareChar c = true) : isBlank c = false := by
  have hrange : 43 ≤ c.toNat ∧ c.toNat ≤ 122 := by
    simp only [isBareChar, Char.isAlphanum, Bool.or_eq_true, beq_iff_eq] at h
    rcases h with ((((h | h) | rfl) | rfl) | rfl) | rfl
    · exact ⟨le_trans (by decide) (toNat_of_isAlpha h).1, (toNat_of_isAlpha h).2⟩
    · exact ⟨le_trans (by decide) (Char.isDigit_iff_toNat.1 h).1,
        le_trans (Char.isDigit_iff_toNat.1 h).2 (by decide)⟩
    all_goals decide
  simp only [isBlank, Bool.or_eq_false_iff, Bool.and_eq_false_iff, decide_eq_false_iff_not,
    beq_eq_false_iff_ne]
  omega

/-- A character of a bare word is plain. -/
lemma isPlain_of_isBareChar {c : Char} (h : isBareChar c = true) : IsPlain c := by
  refine ⟨ne_of_isBareChar h (by decide), ?_, ?_⟩
  · simp [Nesting.isOpening, ne_of_isBareChar h (k := '(') (by decide),
      ne_of_isBareChar h (k := '[') (by decide)]
  · simp [Nesting.isClosing, ne_of_isBareChar h (k := ')') (by decide),
      ne_of_isBareChar h (k := ']') (by decide)]

/-- The characters of tokens outside of quotes and brackets. -/
def IsTokenChar (c : Char) : Prop := isBlank c = false ∧ c ≠ ',' ∧ c ≠ '='

/-- A bare word is a text without commas. -/
lemma isText_bare {t : String} (h : IsBare t) : IsText IsTokenChar t.toList := by
  refine .of_forall (by simpa using h.1) fun c hc => ?_
  have hbare : isBareChar c = true := List.all_eq_true.1 h.2 c hc
  exact ⟨isPlain_of_isBareChar hbare, isBlank_of_isBareChar hbare, ne_of_isBareChar hbare (by decide),
    isBlank_of_isBareChar hbare, ne_of_isBareChar hbare (by decide), ne_of_isBareChar hbare (by decide)⟩

/-- A bare word has no character that bare words do not have. -/
lemma IsBare.ne {t : String} {k : Char} (h : IsBare t) (hk : isBareChar k = false) : ∀ c ∈ t.toList, c ≠ k :=
  fun c hc => ne_of_isBareChar (List.all_eq_true.1 h.2 c hc) hk

/-- A bare word is unbroken. -/
lemma isUnbroken_bare {t : String} (h : IsBare t) : IsUnbroken t.toList := by
  intro c hc
  have hbare : isBareChar c = true := List.all_eq_true.1 h.2 c hc
  rw [isBlank_of_isBareChar hbare, (isPlain_of_isBareChar hbare).2.1]
  rfl

/-- An identifier is a bare word. -/
lemma isBare_of_isIdentifier {t : String} (h : isIdentifier t.toList = true) : IsBare t := by
  have hrest : ∀ c, isIdentifierRest c = true → isBareChar c = true := by
    intro c hc
    simp only [isIdentifierRest, Bool.or_eq_true] at hc
    rcases hc with hc | hc <;> simp [isBareChar, hc]
  have hstart : ∀ c, isIdentifierStart c = true → isIdentifierRest c = true := by
    intro c hc
    simp only [isIdentifierStart, Bool.or_eq_true] at hc
    rcases hc with hc | hc <;> simp [isIdentifierRest, Char.isAlphanum, hc]
  cases hcs : t.toList with
  | nil =>
    rw [hcs] at h
    cases h
  | cons c cs =>
    rw [hcs, isIdentifier, Bool.and_eq_true, List.all_eq_true] at h
    refine ⟨fun ht => by simp [ht] at hcs, ?_⟩
    rw [hcs, List.all_cons, hrest c (hstart c h.1), Bool.true_and, List.all_eq_true]
    exact fun d hd => hrest d (h.2 d hd)

/-- A name is a bare word. -/
lemma IsName.isBare {name : String} (h : IsName name) : IsBare name := isBare_of_isIdentifier h.1

/-- A value without quotes is a text when it is quoted. -/
lemma isText_quote {P : Char → Prop} {v : String} (h : quoteMark ∉ v.toList) :
    IsText P (quote v).toList := by
  simpa [quote, quoteMark] using IsText.quoted (P := P) h

/-! ## Numbers -/

/-- Digits are characters of bare words. -/
lemma all_isBareChar_of_isDigit {ds : List Char} (h : ∀ c ∈ ds, c.isDigit = true) :
    ds.all isBareChar = true :=
  List.all_eq_true.2 fun c hc => by simp [isBareChar, Char.isAlphanum, h c hc]

/-- Characters of bare words make a bare word. -/
lemma isBare_of_toList {t : String} {cs : List Char} (h : t.toList = cs) (hne : cs ≠ [])
    (hall : cs.all isBareChar = true) : IsBare t :=
  ⟨fun ht => hne (by rw [← h, ht]; rfl), h ▸ hall⟩

/-- The text of a natural number is its digits. -/
lemma toList_toString_nat (n : ℕ) : (toString n).toList = digits n := by
  simp [toString, Nat.repr, digits]

/-- The text of a natural number is a bare word. -/
lemma isBare_nat (n : ℕ) : IsBare (toString n) :=
  isBare_of_toList (toList_toString_nat n) (digits_ne_nil n)
    (all_isBareChar_of_isDigit fun _ => isDigit_of_mem_digits)

/-- The text of an integer is a bare word. -/
lemma isBare_int (n : ℤ) : IsBare (toString n) := by
  refine isBare_of_toList (toList_toString_int n) (by simp [digits_ne_nil]) ?_
  rw [List.all_append, all_isBareChar_of_isDigit fun _ => isDigit_of_mem_digits, Bool.and_true]
  split <;> decide

/-- The text of a finite number is a bare word. -/
lemma isBare_render {x : Binary64} (hx : x.isFinite = true) : IsBare (x.render .text) := by
  obtain ⟨whole, frac, part, t, e, htext, hne, hw, hp, hfrac, ht, -⟩ := Binary64.exists_parts_render hx
  have hfracBare : frac.all isBareChar = true := by
    rcases hfrac with rfl | ⟨-, rfl⟩
    · rw [List.all_cons, all_isBareChar_of_isDigit hp]
      rfl
    · rfl
  have htBare : t.all isBareChar = true := by
    rcases ht with ⟨rfl, -⟩ | rfl
    · rfl
    · rw [List.all_cons, (isBare_int e).2]
      rfl
  refine isBare_of_toList htext (by simp [hne]) ?_
  rw [List.all_append, List.all_append, List.all_append, all_isBareChar_of_isDigit hw, hfracBare, htBare]
  split <;> decide

/-! ## Lists -/

/-- The text between the items of a list. -/
abbrev joined (items : List String) : List Char := [',', ' '].intercalate (items.map String.toList)

variable {P Q : Char → Prop} {padded : Bool} {items : List String}

/-- Texts that are joined by commas are a text. -/
lemma isText_joined (hcomma : P ',') (hspace : P ' ') (hne : items ≠ [])
    (h : ∀ i ∈ items, IsText P i.toList) : IsText P (joined items) :=
  .separated hcomma hspace (by simpa using hne) (by simpa using h)

/-- What is joined is a text unless nothing is. -/
lemma joined_eq_nil_or (h : ∀ i ∈ items, IsText Q i.toList) :
    joined items = [] ∨ IsText (fun _ => True) (joined items) := by
  rcases eq_or_ne items [] with rfl | hne
  · exact .inl rfl
  · exact .inr (isText_joined trivial trivial hne fun i hi => (h i hi).mono fun _ _ => trivial)

/-- Texts in brackets are a text. -/
lemma isText_bracketed (h : ∀ i ∈ items, IsText Q i.toList) : IsText P (bracketed items).toList := by
  simpa [bracketed] using IsText.nested (P := P) (o := '[') (k := ']') rfl rfl (joined_eq_nil_or h) false

/-- The characters of a list in parentheses, with blanks inside if they are asked for. -/
lemma toList_parenthesized (padded : Bool) (items : List String) :
    (parenthesized padded items).toList = '(' :: ((if padded ∧ joined items ≠ [] then
      ' ' :: (joined items ++ [' ']) else joined items) ++ [')']) := by
  have hinner : (", ".intercalate items).toList = joined items := String.toList_intercalate
  have hempty : ", ".intercalate items ≠ "" ↔ joined items ≠ [] := by
    rw [← hinner, ne_eq, ne_eq, String.toList_eq_nil_iff]
  simp only [parenthesized, hempty]
  split <;> simp [hinner]

/-- Texts in parentheses are a text. -/
lemma isText_parenthesized (h : ∀ i ∈ items, IsText Q i.toList) :
    IsText P (parenthesized padded items).toList :=
  toList_parenthesized padded items ▸ .nested rfl rfl (joined_eq_nil_or h) padded

end ProvenTables.Sql
