import ProvenTables.Proofs.Sql.Spacing

/-!
# Nested brackets

When a text is nested properly: its quotes come in pairs, and outside of them every bracket is closed by
one that comes after it, the innermost first. The scanners that cut a text count brackets of both kinds
together and take a closing bracket too many for none at all; here an open bracket is remembered with its
kind, and a closing bracket without one is an error.

Only the quotes and brackets of a text matter for this, its marks, and neither squeezing blanks nor
trimming changes them (`marks_squeeze`, `isNested_marks`).
-/

namespace ProvenTables.Sql

open Text

/-! ## Marks -/

/-- The quotes and brackets of a text in their order. -/
def marks (cs : List Char) : List Char := cs.filter fun c => ¬ IsPlain c

section

variable {a b cs : List Char} {c : Char} {p : Char → Bool}

/-- No characters have no quotes and brackets. -/
@[simp] lemma marks_nil : marks [] = [] := rfl

/-- The quotes and brackets of two texts in a row are those of both. -/
@[simp] lemma marks_append (a b : List Char) : marks (a ++ b) = marks a ++ marks b := List.filter_append ..

/-- A plain character is left out. -/
lemma marks_cons_of_isPlain (h : IsPlain c) : marks (c :: cs) = marks cs :=
  List.filter_cons_of_neg (by simpa using h)

/-- A quote or a bracket stays. -/
lemma marks_cons_of_not_isPlain (h : ¬ IsPlain c) : marks (c :: cs) = c :: marks cs :=
  List.filter_cons_of_pos (by simpa using h)

/-- Without quotes and brackets every character is plain. -/
lemma marks_eq_nil : marks cs = [] ↔ ∀ c ∈ cs, IsPlain c := by
  simp [marks, List.filter_eq_nil_iff]

/-- A blank is plain. -/
lemma isPlain_of_isBlank (h : isBlank c = true) : IsPlain c := by
  have hne : ∀ k, isBlank k = false → c ≠ k := by
    rintro k hk rfl
    rw [h] at hk
    cases hk
  refine ⟨hne _ (by decide), ?_, ?_⟩
  · simp [Nesting.isOpening, hne '(' (by decide), hne '[' (by decide)]
  · simp [Nesting.isClosing, hne ')' (by decide), hne ']' (by decide)]

/-- Dropping plain characters at the front keeps the quotes and brackets. -/
lemma marks_dropWhile (h : ∀ c, p c = true → IsPlain c) (cs : List Char) :
    marks (cs.dropWhile p) = marks cs := by
  have hdropped : marks (cs.takeWhile p) = [] := marks_eq_nil.2 fun c hc => h c (List.mem_takeWhile_imp hc)
  conv_rhs => rw [← List.takeWhile_append_dropWhile (p := p) (l := cs), marks_append, hdropped,
    List.nil_append]

/-- The quotes and brackets of a reversed text are reversed. -/
lemma marks_reverse (cs : List Char) : marks cs.reverse = (marks cs).reverse := List.filter_reverse ..

/-- Dropping plain characters at the end keeps the quotes and brackets. -/
lemma marks_dropEndWhile (h : ∀ c, p c = true → IsPlain c) (cs : List Char) :
    marks (dropEndWhile p cs) = marks cs := by
  rw [dropEndWhile, marks_reverse, marks_dropWhile h, marks_reverse, List.reverse_reverse]

/-- Dropping blanks at the front keeps the quotes and brackets. -/
@[simp] lemma marks_trimLeft (cs : List Char) : marks (trimLeft cs) = marks cs :=
  marks_dropWhile (fun _ => isPlain_of_isBlank) cs

/-- Dropping blanks at the ends keeps the quotes and brackets. -/
@[simp] lemma marks_trim (cs : List Char) : marks (trim cs) = marks cs :=
  (marks_dropEndWhile (fun _ => isPlain_of_isBlank) _).trans (marks_trimLeft cs)

/-- Joining blanks keeps the quotes and brackets. -/
lemma marks_collapse (quoted pending : Bool) (cs : List Char) :
    marks (collapse quoted pending cs) = marks cs := by
  induction cs generalizing quoted pending with
  | nil => rfl
  | cons c cs ih =>
    rw [collapse]
    split
    · rename_i hblank
      rw [ih, marks_cons_of_isPlain (isPlain_of_isBlank (Bool.and_eq_true_iff.1 hblank).2)]
    · have hkept : ∀ quoted, marks (c :: collapse quoted false cs) = marks (c :: cs) := by
        intro quoted
        rw [← List.singleton_append, marks_append, ih, ← marks_append, List.singleton_append]
      dsimp only
      split
      · rw [marks_cons_of_isPlain (by decide), hkept]
      · rw [hkept]

/-- Squeezing the blanks of a text keeps its marks. -/
theorem marks_squeeze (cs : List Char) : marks (squeeze cs) = marks cs := by
  have hsemicolon : ∀ c, (c == ';') = true → IsPlain c := by
    intro c hc
    rw [beq_iff_eq.1 hc]
    decide
  rw [squeeze, trimRight, marks_dropEndWhile fun _ => isPlain_of_isBlank, marks_dropEndWhile hsemicolon,
    marks_collapse, marks_trim]

/-- The quotes are among the quotes and brackets. -/
lemma count_marks (cs : List Char) : (marks cs).count quoteMark = cs.count quoteMark := by
  rw [marks, List.count_filter (by decide)]

/-- There is a quote among the quotes and brackets if there is one. -/
lemma mem_marks : quoteMark ∈ marks cs ↔ quoteMark ∈ cs := by
  simp [marks, show ¬ IsPlain quoteMark by decide]

end

/-! ## Open brackets -/

/-- Whether a place in a text is inside quotes, and the brackets that are open there, the innermost
first. -/
structure Open where
  quoted : Bool
  brackets : List Char
  deriving DecidableEq

/-- Whether a closing bracket is of the kind of an opening one. -/
def sameKind (o k : Char) : Bool := (o == '(' && k == ')') || (o == '[' && k == ']')

/-- Brackets of one kind close those of the other. -/
def anyKind (_ _ : Char) : Bool := true

namespace Open

/-- Outside of quotes, with no bracket open. -/
def top : Open := ⟨false, []⟩

/-- What is open after one more character, unless it closes what is not open. -/
def next? (closes : Char → Char → Bool) (s : Open) (c : Char) : Option Open :=
  if c = quoteMark then some { s with quoted := !s.quoted }
  else if s.quoted then some s
  else if Nesting.isOpening c then some { s with brackets := c :: s.brackets }
  else if Nesting.isClosing c then
    match s.brackets with
    | [] => none
    | o :: os => if closes o c then some { s with brackets := os } else none
  else some s

/-- What is open after a text. -/
def after? (closes : Char → Char → Bool) (s : Open) (cs : List Char) : Option Open :=
  cs.foldlM (next? closes) s

end Open

/-- Whether quotes and brackets of a text come in pairs that are nested in each other, with `closes` for
the brackets that make a pair. -/
def IsNested (closes : Char → Char → Bool) (cs : List Char) : Prop := Open.top.after? closes cs = some .top

/-- Whether brackets are nested can be decided. -/
instance (closes : Char → Char → Bool) (cs : List Char) : Decidable (IsNested closes cs) := by
  unfold IsNested
  infer_instance

/-- Whether a text is without quotes, and its brackets are nested with each closed by one of its kind. -/
def IsClean (cs : List Char) : Prop := quoteMark ∉ cs ∧ IsNested sameKind cs

/-- Whether brackets are nested and there are no quotes can be decided. -/
instance (cs : List Char) : Decidable (IsClean cs) := by
  unfold IsClean
  infer_instance

namespace Open

variable {closes : Char → Char → Bool} {s t : Open} {cs os : List Char} {c o : Char}

/-- A quote opens or closes a text. -/
lemma next?_quoteMark (closes) (s : Open) :
    s.next? closes quoteMark = some { s with quoted := !s.quoted } := if_pos rfl

/-- Within quotes nothing is opened or closed. -/
lemma next?_quoted (h : c ≠ quoteMark) : next? closes ⟨true, os⟩ c = some ⟨true, os⟩ := by
  simp [next?, h]

/-- An opening bracket is open until it is closed. -/
lemma next?_of_isOpening (h : Nesting.isOpening c = true) :
    next? closes ⟨false, os⟩ c = some ⟨false, c :: os⟩ := by
  simp [next?, Nesting.ne_quoteMark_of_isOpening h, h]

/-- A closing bracket closes the last one that is open. -/
lemma next?_of_isClosing (h : Nesting.isClosing c = true) (hc : closes o c = true) :
    next? closes ⟨false, o :: os⟩ c = some ⟨false, os⟩ := by
  simp [next?, Nesting.ne_quoteMark_of_isClosing h, Nesting.isOpening_of_isClosing h, h, hc]

/-- Characters are read one by one. -/
lemma after?_cons (h : s.next? closes c = some t) : s.after? closes (c :: cs) = t.after? closes cs := by
  rw [after?, List.foldlM_cons, h]
  rfl

/-- A text is read after the one before it. -/
lemma after?_append (closes) (s : Open) (a b : List Char) :
    s.after? closes (a ++ b) = s.after? closes a >>= (after? closes · b) :=
  List.foldlM_append

/-- A plain character opens and closes nothing. -/
lemma next?_of_isPlain (h : IsPlain c) : s.next? closes c = some s := by
  simp [next?, h.1, h.2.1, h.2.2]

/-- Only quotes and brackets are of interest. -/
lemma after?_marks (closes) (s : Open) (cs : List Char) :
    s.after? closes (marks cs) = s.after? closes cs := by
  induction cs generalizing s with
  | nil => rfl
  | cons c cs ih =>
    by_cases hc : IsPlain c
    · rw [marks_cons_of_isPlain hc, ih, after?_cons (next?_of_isPlain hc)]
    · rw [marks_cons_of_not_isPlain hc, after?, after?, List.foldlM_cons, List.foldlM_cons]
      exact bind_congr fun s => ih s

/-- A character changes whether it is within quotes if it is one. -/
lemma quoted_of_next? (h : s.next? closes c = some t) : t.quoted = (s.quoted != (c == quoteMark)) := by
  unfold next? at h
  grind

/-- A text leads out of quotes, or into them, exactly if it has an odd number of them. -/
lemma even_count_iff (h : s.after? closes cs = some t) :
    Even (cs.count quoteMark) ↔ s.quoted = t.quoted := by
  induction cs generalizing s with
  | nil =>
    cases h
    simp
  | cons c cs ih =>
    obtain ⟨u, hu, hrest⟩ := Option.bind_eq_some_iff.1 (show s.next? closes c >>= _ = some t from h)
    have hquoted := quoted_of_next? hu
    by_cases hc : c = quoteMark
    · have hflip : u.quoted = !s.quoted := by simpa [hc] using hquoted
      rw [hc, List.count_cons_self, Nat.even_add_one, ih hrest, hflip]
      cases s.quoted <;> cases t.quoted <;> decide
    · have hsame : u.quoted = s.quoted := by simpa [beq_false_of_ne hc] using hquoted
      rw [List.count_cons_of_ne hc, ih hrest, hsame]

/-- Parts that change nothing change nothing one after the other. -/
lemma after?_flatMap {α : Type} {f : α → List Char} {xs : List α}
    (h : ∀ x ∈ xs, s.after? closes (f x) = some s) : s.after? closes (xs.flatMap f) = some s := by
  induction xs with
  | nil => rfl
  | cons x xs ih =>
    obtain ⟨hx, hxs⟩ := List.forall_mem_cons.1 h
    rw [List.flatMap_cons, after?_append, hx]
    exact ih hxs

end Open

section

variable {closes : Char → Char → Bool} {a b cs : List Char}

/-- Whether a text is nested depends on its marks alone. -/
theorem isNested_marks (closes) (cs : List Char) : IsNested closes (marks cs) ↔ IsNested closes cs := by
  rw [IsNested, Open.after?_marks, IsNested]

/-- Whether brackets are nested depends on the quotes and brackets only. -/
lemma isNested_congr (h : marks a = marks b) : IsNested closes a ↔ IsNested closes b := by
  rw [← isNested_marks, h, isNested_marks]

/-- Whether a text is clean depends on the quotes and brackets only. -/
lemma isClean_congr (h : marks a = marks b) : IsClean a ↔ IsClean b := by
  rw [IsClean, ← mem_marks, h, mem_marks, isNested_congr h, IsClean]

/-- The number of quotes depends on the quotes and brackets only. -/
lemma count_congr (h : marks a = marks b) : a.count quoteMark = b.count quoteMark := by
  rw [← count_marks, h, count_marks]

/-- The quotes of a nested text come in pairs. -/
theorem IsNested.even (h : IsNested closes cs) : Even (cs.count quoteMark) :=
  (Open.even_count_iff h).2 rfl

end

/-! ## Flat texts -/

/-- Whether a text has no marks, or those of one pair of square brackets. -/
def IsFlat (cs : List Char) : Prop := marks cs = [] ∨ marks cs = ['[', ']']

/-- Whether a text is flat can be decided. -/
instance (cs : List Char) : Decidable (IsFlat cs) := by
  unfold IsFlat
  infer_instance

namespace IsFlat

variable {cs : List Char}

/-- A flat text changes nothing, inside quotes or outside of them. -/
lemma after? (h : IsFlat cs) (s : Open) : s.after? sameKind cs = some s := by
  rw [← Open.after?_marks]
  rcases h with h | h
  · rw [h]
    rfl
  · obtain ⟨quoted, brackets⟩ := s
    rw [h]
    cases quoted <;> rfl

/-- A flat text has no quotes. -/
lemma quoteMark_notMem (h : IsFlat cs) : quoteMark ∉ cs := by
  rw [← mem_marks]
  rcases h with h | h <;> rw [h] <;> decide

/-- A flat text is clean. -/
lemma isClean (h : IsFlat cs) : IsClean cs := ⟨h.quoteMark_notMem, h.after? .top⟩

/-- Flat parts in parentheses are nested. -/
lemma isClean_of_parts {parts : List (List Char)} (h : ∀ p ∈ parts, IsFlat p)
    (hcs : marks cs = '(' :: (parts.flatMap marks ++ [')'])) : IsClean cs := by
  constructor
  · have hparts : quoteMark ∉ parts.flatMap marks := by
      rw [List.mem_flatMap]
      rintro ⟨p, hp, hmem⟩
      exact (h p hp).quoteMark_notMem (mem_marks.1 hmem)
    rw [← mem_marks, hcs, List.mem_cons, List.mem_append, not_or, not_or]
    exact ⟨by decide, hparts, by decide⟩
  · have hinner : Open.after? sameKind ⟨false, ['(']⟩ (parts.flatMap marks) = some ⟨false, ['(']⟩ :=
      Open.after?_flatMap fun p hp => by rw [Open.after?_marks, (h p hp).after?]
    have hopening : Open.top.next? sameKind '(' = some ⟨false, ['(']⟩ := rfl
    rw [← isNested_marks, hcs, IsNested, Open.after?_cons hopening, Open.after?_append, hinner]
    rfl

end IsFlat

end ProvenTables.Sql
