import ProvenTables.Proofs.Sql.Quotations

/-!
# Blanks outside of quotes

How many blanks stand between the parts of a statement, and which, says nothing: texts that differ only in their
blanks outside of quotes are squeezed to one text (`DifferInBlanks.squeeze_eq`), so they are read alike, and
what they have between their quotes is in the literals that are read (`parse_respaced`).
-/

namespace ProvenTables.Sql

open Text

/-- Whether a text is made of blanks, of at least one. -/
def IsGap (v : List Char) : Prop := v ≠ [] ∧ ∀ c ∈ v, isBlank c = true

/-- Whether characters are a gap can be decided. -/
instance (v : List Char) : Decidable (IsGap v) := by unfold IsGap; infer_instance

/-- One change of blanks outside of quotes: a run of blanks is exchanged for another, or blanks are put before a
text or behind it. -/
inductive Respaces : List Char → List Char → Prop
  | within {a v w b} : Even (a.count quoteMark) → IsGap v → IsGap w → Respaces (a ++ (v ++ b)) (a ++ (w ++ b))
  | before {v a} : (∀ c ∈ v, isBlank c = true) → Respaces a (v ++ a)
  | behind {v a} : (∀ c ∈ v, isBlank c = true) → Respaces a (a ++ v)

/-- Whether one of two texts becomes the other through changes of blanks outside of quotes, made and undone. -/
def DifferInBlanks : List Char → List Char → Prop := Relation.EqvGen Respaces

variable {quoted : Bool} {a b r r' v cs : List Char}

/-! ## Squeezing around blanks -/

/-- Texts that are collapsed alike are so too behind a text that ends outside of quotes. -/
lemma collapse_append_congr (ha : EndsOutside quoted a)
    (h : ∀ pending, collapse false pending r = collapse false pending r') (pending : Bool) :
    collapse quoted pending (a ++ r) = collapse quoted pending (a ++ r') := by
  induction a generalizing quoted pending with
  | nil =>
    obtain rfl : quoted = false := by simpa [EndsOutside] using ha
    exact h pending
  | cons c a ih =>
    rw [List.cons_append, List.cons_append, collapse, collapse]
    split
    · rename_i hblank
      have hc : c ≠ quoteMark := (isPlain_of_isBlank (Bool.and_eq_true_iff.1 hblank).2).1
      exact ih ((endsOutside_cons_of_ne hc).1 ha) true
    · dsimp only
      rw [ih (endsOutside_cons.1 ha) false]

/-- A blank is held back until it is known what follows. -/
lemma collapse_cons_of_isBlank {c : Char} (h : isBlank c = true) (pending : Bool) (cs : List Char) :
    collapse false pending (c :: cs) = collapse false true cs := by
  rw [collapse, if_pos (by simpa using h)]

/-- Blanks after a blank are joined with it. -/
lemma collapse_blanks (h : ∀ c ∈ v, isBlank c = true) (r : List Char) :
    collapse false true (v ++ r) = collapse false true r := by
  induction v with
  | nil => rfl
  | cons c v ih =>
    obtain ⟨hc, hv⟩ := List.forall_mem_cons.1 h
    rw [List.cons_append, collapse_cons_of_isBlank hc, ih hv]

/-- A gap is joined to one blank that is held back. -/
lemma collapse_gap (h : IsGap v) (pending : Bool) (r : List Char) :
    collapse false pending (v ++ r) = collapse false true r := by
  obtain ⟨c, v, rfl⟩ := List.exists_cons_of_ne_nil h.1
  obtain ⟨hc, hv⟩ := List.forall_mem_cons.1 h.2
  rw [List.cons_append, collapse_cons_of_isBlank hc, collapse_blanks hv]

/-- Blanks without a text behind them are dropped. -/
lemma collapse_eq_nil (h : ∀ c ∈ v, isBlank c = true) (pending : Bool) : collapse false pending v = [] := by
  induction v generalizing pending with
  | nil => rfl
  | cons c v ih =>
    obtain ⟨hc, hv⟩ := List.forall_mem_cons.1 h
    rw [collapse_cons_of_isBlank hc, ih hv]

/-- A pending blank comes first. -/
lemma trimLeft_collapse_pending (cs : List Char) :
    trimLeft (collapse false true cs) = trimLeft (collapse false false cs) := by
  cases cs with
  | nil => rfl
  | cons c cs =>
    by_cases hc : isBlank c = true
    · rw [collapse_cons_of_isBlank hc, collapse_cons_of_isBlank hc]
    · have hnone : ¬ (!false && isBlank c) = true := by simpa using hc
      rw [collapse, if_neg hnone, collapse, if_neg hnone]
      exact List.dropWhile_cons_of_pos (by decide)

/-- Blanks at the front can be dropped before or after blanks are joined. -/
lemma collapse_trimLeft (cs : List Char) :
    collapse false false (trimLeft cs) = trimLeft (collapse false false cs) := by
  induction cs with
  | nil => rfl
  | cons c cs ih =>
    by_cases hc : isBlank c = true
    · rw [collapse_cons_of_isBlank hc, trimLeft_collapse_pending, ← ih]
      exact congrArg _ (List.dropWhile_cons_of_pos hc)
    · have hnone : ¬ (!false && isBlank c) = true := by simpa using hc
      have hkept : trimLeft (c :: cs) = c :: cs := List.dropWhile_cons_of_neg hc
      rw [hkept, collapse, if_neg hnone]
      exact (List.dropWhile_cons_of_neg hc).symm

/-- Blanks at the end are dropped when blanks are joined. -/
lemma collapse_append_blanks (ha : Even (a.count quoteMark)) (hv : ∀ c ∈ v, isBlank c = true) :
    collapse false false (a ++ v) = collapse false false a := by
  have hnil : ∀ pending, collapse false pending v = collapse false pending [] := collapse_eq_nil hv
  have hend := collapse_append_congr (endsOutside_false.2 ha) hnil false
  rwa [List.append_nil] at hend

/-- The characters that are trimmed at the end are blanks. -/
lemma isBlank_of_mem_end {c : Char} (h : c ∈ (cs.reverse.takeWhile isBlank).reverse) : isBlank c = true :=
  List.mem_takeWhile_imp (List.mem_reverse.1 h)

/-- Blanks have no quotes among them. -/
lemma count_quoteMark_of_isBlank (h : ∀ c ∈ v, isBlank c = true) : v.count quoteMark = 0 :=
  List.count_eq_zero_of_not_mem (quoteMark_notMem_of_isBlank h)

/-- A text that ends outside of quotes can be trimmed after its blanks have been collapsed. -/
lemma squeeze_of_even (h : Even (cs.count quoteMark)) :
    squeeze cs = trimRight (dropEndWhile (· == ';') (trimLeft (collapse false false cs))) := by
  have hcount : (trimRight (trimLeft cs)).count quoteMark = cs.count quoteMark := by
    rw [← trim, ← count_marks, marks_trim, count_marks]
  have htrim : collapse false false (trim cs) = trimLeft (collapse false false cs) := by
    rw [← collapse_trimLeft, trim]
    conv_rhs => rw [← dropEndWhile_append_takeWhile isBlank (trimLeft cs)]
    exact (collapse_append_blanks (hcount ▸ h) fun _ => isBlank_of_mem_end).symm
  rw [squeeze, htrim]

/-! ## Texts that differ in blanks -/

/-- Respacing keeps the number of quotes. -/
lemma Respaces.count_eq (h : Respaces a b) : a.count quoteMark = b.count quoteMark := by
  cases h with
  | within _ hv hw => simp only [List.count_append, count_quoteMark_of_isBlank hv.2, count_quoteMark_of_isBlank hw.2]
  | before hv => rw [List.count_append, count_quoteMark_of_isBlank hv, Nat.zero_add]
  | behind hv => rw [List.count_append, count_quoteMark_of_isBlank hv, Nat.add_zero]

/-- One change of blanks outside of quotes does not change what is left when blanks are squeezed. -/
lemma Respaces.squeeze_eq (h : Respaces a b) (ha : Even (a.count quoteMark)) : squeeze a = squeeze b := by
  rw [squeeze_of_even ha, squeeze_of_even (h.count_eq ▸ ha)]
  cases h with
  | within heven hv hw =>
    rw [collapse_append_congr (endsOutside_false.2 heven) fun pending =>
      (collapse_gap hv pending _).trans (collapse_gap hw pending _).symm]
  | @before v a hv =>
    have hsame : trimLeft (collapse false false (v ++ a)) = trimLeft (collapse false false a) := by
      rw [← trimLeft_collapse_pending, collapse_blanks hv, trimLeft_collapse_pending]
    rw [hsame]
  | behind hv => rw [collapse_append_blanks ha hv]

namespace DifferInBlanks

/-- Texts that differ in blanks have the same number of quotes. -/
lemma count_eq (h : DifferInBlanks a b) : a.count quoteMark = b.count quoteMark := by
  induction h with
  | rel a b h => exact h.count_eq
  | refl a => rfl
  | symm a b _ ih => exact ih.symm
  | trans a b c _ _ ihab ihbc => exact ihab.trans ihbc

/-- Texts that differ in blanks outside of quotes only are the same when blanks are squeezed. -/
theorem squeeze_eq (h : DifferInBlanks a b) (ha : Even (a.count quoteMark)) : squeeze a = squeeze b := by
  induction h with
  | rel a b h => exact h.squeeze_eq ha
  | refl a => rfl
  | symm a b h ih => exact (ih (count_eq h ▸ ha)).symm
  | trans a b c hab _ ihab ihbc => exact (ihab ha).trans (ihbc (count_eq hab ▸ ha))

end DifferInBlanks

/-- Texts with quotes in pairs that differ in blanks outside of quotes only are read alike, as one statement or
with one error; and what is between the quotes of a text stands so in the literals of its statement. -/
theorem parse_respaced {sql sql' : String} (hquotes : Even (sql.toList.count quoteMark))
    (h : DifferInBlanks sql.toList sql'.toList) :
    parse sql = parse sql' ∧ quotations sql.toList = quotations sql'.toList ∧
      ∀ s, parse sql = .ok s → s.literals.flatMap (fun l => quotations l.toList) = quotations sql.toList := by
  have hsqueeze := h.squeeze_eq hquotes
  refine ⟨?_, ?_, fun s => quotations_of_parse⟩
  · simp only [parse, hsqueeze]
  · rw [← quotations_squeeze, hsqueeze, quotations_squeeze]

/-- Two blanks in quotes are kept, and those around the keyword behind them may be others. -/
theorem parse_respaced_indented :
    Even ("SELECT a FROM t WHERE b = 'x  y' LIMIT 1".toList.count quoteMark) ∧
    DifferInBlanks "SELECT a FROM t WHERE b = 'x  y' LIMIT 1".toList
      "\n  SELECT a FROM t WHERE b = 'x  y'\n\u3000LIMIT 1\t".toList ∧
    parse "SELECT a FROM t WHERE b = 'x  y' LIMIT 1" =
      .ok (.select ⟨"t", .columns ["a"], some ⟨"b", "'x  y'"⟩, none, none, some 1, none⟩) ∧
    parse "\n  SELECT a FROM t WHERE b = 'x  y'\n\u3000LIMIT 1\t" =
      .ok (.select ⟨"t", .columns ["a"], some ⟨"b", "'x  y'"⟩, none, none, some 1, none⟩) ∧
    quotations "\n  SELECT a FROM t WHERE b = 'x  y'\n\u3000LIMIT 1\t".toList = [['x', ' ', ' ', 'y']] ∧
    ["'x  y'"].flatMap (fun l => quotations l.toList) =
      quotations "SELECT a FROM t WHERE b = 'x  y' LIMIT 1".toList := by
  obtain ⟨a, ha⟩ : ∃ a, a = "SELECT a FROM t WHERE b = 'x  y'".toList := ⟨_, rfl⟩
  obtain ⟨b, hb⟩ : ∃ b, b = "LIMIT 1".toList := ⟨_, rfl⟩
  have htext : "SELECT a FROM t WHERE b = 'x  y' LIMIT 1".toList = a ++ ([' '] ++ b) := by
    rw [ha, hb]
    decide +kernel
  have htext' : "\n  SELECT a FROM t WHERE b = 'x  y'\n\u3000LIMIT 1\t".toList =
      ['\n', ' ', ' '] ++ (a ++ (['\n', '\u3000'] ++ b)) ++ ['\t'] := by
    rw [ha, hb]
    decide +kernel
  have hdiffer : DifferInBlanks "SELECT a FROM t WHERE b = 'x  y' LIMIT 1".toList
      "\n  SELECT a FROM t WHERE b = 'x  y'\n\u3000LIMIT 1\t".toList := by
    rw [htext, htext']
    refine .trans _ _ _ (.rel _ _ (.within ?_ (by decide) (by decide))) (.trans _ _ _ (.rel _ _ (.before ?_))
      (.rel _ _ (.behind ?_)))
    · rw [ha]
      decide +kernel
    · decide
    · decide
  have hquotes : Even ("SELECT a FROM t WHERE b = 'x  y' LIMIT 1".toList.count quoteMark) := by decide +kernel
  have hparse : parse "SELECT a FROM t WHERE b = 'x  y' LIMIT 1" =
      .ok (.select ⟨"t", .columns ["a"], some ⟨"b", "'x  y'"⟩, none, none, some 1, none⟩) := by decide +kernel
  obtain ⟨hsame, hquotations, hliterals⟩ := parse_respaced hquotes hdiffer
  refine ⟨hquotes, hdiffer, hparse, hsame.symm.trans hparse, hquotations.symm.trans ?_, hliterals _ hparse⟩
  decide +kernel

end ProvenTables.Sql
