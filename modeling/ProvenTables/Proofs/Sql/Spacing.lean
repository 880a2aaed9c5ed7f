import ProvenTables.Proofs.Sql.Nesting
import ProvenTables.Scalar
import ProvenTables.Sql.Parser

/-!
# Spacing

A text with single spaces outside of its quotes and none at its ends is what is left of it when blanks
are squeezed. Such texts are made of words and quoted literals with single spaces or nothing between them.
-/

namespace ProvenTables.Sql

open Text

/-! ## Single spaces -/

/-- Whether squeezing passes over a text: it keeps the text as it is, after the space for the blanks
before it, and goes on outside of quotes without blanks behind it. -/
def IsTidy (a : List Char) : Prop :=
  ∀ pending r,
    collapse false pending (a ++ r) = (if pending then [' '] else []) ++ a ++ collapse false false r

namespace IsTidy

variable {a b : List Char}

/-- Tidy texts in a row are tidy. -/
lemma append (ha : IsTidy a) (hb : IsTidy b) : IsTidy (a ++ b) := by
  intro pending r
  rw [List.append_assoc, ha, hb]
  simp

/-- Tidy texts with one blank between them are tidy. -/
lemma spaced (ha : IsTidy a) (hb : IsTidy b) : IsTidy (a ++ ' ' :: b) := by
  intro pending r
  have hspace : collapse false false (' ' :: (b ++ r)) = collapse false true (b ++ r) := rfl
  rw [List.append_assoc, ha, List.cons_append, hspace, hb]
  simp

/-- A character that is neither a blank nor a quote is tidy. -/
lemma char {c : Char} (hc : isBlank c = false) (hq : c ≠ quoteMark) : IsTidy [c] := by
  intro pending r
  have hquote : (c == quoteMark) = false := beq_false_of_ne hq
  cases pending <;> simp [collapse, hc, hquote]

/-- Characters that are neither blanks nor quotes are tidy. -/
lemma of_forall (hne : a ≠ []) (h : ∀ c ∈ a, isBlank c = false ∧ c ≠ quoteMark) : IsTidy a := by
  induction a with
  | nil => exact absurd rfl hne
  | cons c a ih =>
    obtain ⟨hc, ha⟩ := List.forall_mem_cons.1 h
    cases a with
    | nil => exact char hc.1 hc.2
    | cons d a => exact (char hc.1 hc.2).append (ih (List.cons_ne_nil _ _) ha)

/-- A quoted text is tidy. -/
lemma quoted {body : List Char} (h : quoteMark ∉ body) : IsTidy (quoteMark :: (body ++ [quoteMark])) := by
  have hinside : ∀ r, collapse true false (body ++ quoteMark :: r) =
      body ++ quoteMark :: collapse false false r := by
    intro r
    induction body with
    | nil => simp [collapse]
    | cons c body ih =>
      rw [List.mem_cons, not_or] at h
      have hc : (c == quoteMark) = false := beq_false_of_ne (Ne.symm h.1)
      simp [collapse, hc, ih h.2]
  intro pending r
  have hblank : isBlank quoteMark = false := by decide
  cases pending <;> simp [collapse, hblank, hinside]

end IsTidy

/-! ## Ends -/

/-- Whether a text begins with a character that is no blank, and ends with one that is neither a blank
nor a semicolon. -/
structure IsSharp (a : List Char) : Prop where
  head : ∃ c, a.head? = some c ∧ isBlank c = false
  last : ∃ c, a.getLast? = some c ∧ isBlank c = false ∧ c ≠ ';'

namespace IsSharp

variable {a b : List Char}

/-- A sharp text is not empty. -/
lemma ne_nil (h : IsSharp a) : a ≠ [] := by
  rintro rfl
  obtain ⟨c, hc, -⟩ := h.head
  cases hc

/-- A sharp text has no blanks at the ends. -/
lemma isTrimmed (h : IsSharp a) : IsTrimmed a where
  head := by
    obtain ⟨c, hc, hblank⟩ := h.head
    simpa [hc] using hblank
  last := by
    obtain ⟨c, hc, hblank, -⟩ := h.last
    simpa [hc] using hblank

/-- A text with sharp ends is sharp. -/
lemma append (ha : IsSharp a) (m : List Char) (hb : IsSharp b) : IsSharp (a ++ (m ++ b)) where
  head := by
    obtain ⟨c, hc, hblank⟩ := ha.head
    exact ⟨c, by rw [List.head?_append, hc, Option.some_or], hblank⟩
  last := by
    obtain ⟨c, hc, hends⟩ := hb.last
    exact ⟨c, by rw [List.getLast?_append, List.getLast?_append, hc, Option.some_or, Option.some_or], hends⟩

/-- Characters that are neither blanks nor semicolons are sharp. -/
lemma of_forall (hne : a ≠ []) (h : ∀ c ∈ a, isBlank c = false ∧ c ≠ ';') : IsSharp a where
  head := ⟨a.head hne, List.head?_eq_some_head hne, (h _ (List.head_mem hne)).1⟩
  last := ⟨a.getLast hne, List.getLast?_eq_some_getLast hne, h _ (List.getLast_mem hne)⟩

end IsSharp

/-- A text with single spaces and sharp ends is not changed when blanks are squeezed. -/
theorem squeeze_eq {a : List Char} (ht : IsTidy a) (hs : IsSharp a) : squeeze a = a := by
  have hcollapse : collapse false false a = a := by simpa [collapse] using ht false []
  obtain ⟨z, hz, hblank, hsemicolon⟩ := hs.last
  rw [squeeze, trim_eq hs.isTrimmed, hcollapse, dropEndWhile_eq_self (by simp [hz, hsemicolon]),
    trimRight, dropEndWhile_eq_self (by simp [hz, hblank])]

/-! ## Texts of statements -/

/-- Whether a text is balanced, with characters of the given kind outside of quotes and brackets, and is
not changed when blanks are squeezed. -/
structure IsText (P : Char → Prop) (a : List Char) : Prop where
  balanced : Balanced P a
  tidy : IsTidy a
  sharp : IsSharp a

namespace IsText

variable {P Q : Char → Prop} {a b : List Char}

/-- A text with a property is a text with a weaker one. -/
lemma mono (hPQ : ∀ c, P c → Q c) (h : IsText P a) : IsText Q a :=
  ⟨h.balanced.mono hPQ, h.tidy, h.sharp⟩

/-- Texts in a row are a text. -/
lemma append (ha : IsText P a) (hb : IsText P b) : IsText P (a ++ b) :=
  ⟨ha.balanced.append hb.balanced, ha.tidy.append hb.tidy, ha.sharp.append [] hb.sharp⟩

/-- Texts with one blank between them are a text. -/
lemma spaced (hP : P ' ') (ha : IsText P a) (hb : IsText P b) : IsText P (a ++ ' ' :: b) :=
  ⟨ha.balanced.append (.plain (by decide) hP hb.balanced), ha.tidy.spaced hb.tidy,
    ha.sharp.append [' '] hb.sharp⟩

/-- Plain characters without blanks and semicolons among them. -/
lemma of_forall (hne : a ≠ []) (h : ∀ c ∈ a, IsPlain c ∧ isBlank c = false ∧ c ≠ ';' ∧ P c) :
    IsText P a where
  balanced := .of_forall fun c hc => ⟨(h c hc).1, (h c hc).2.2.2⟩
  tidy := .of_forall hne fun c hc => ⟨(h c hc).2.1, (h c hc).1.1⟩
  sharp := .of_forall hne fun c hc => ⟨(h c hc).2.1, (h c hc).2.2.1⟩

/-- A quoted text is a text, whatever is in it. -/
lemma quoted {body : List Char} (h : quoteMark ∉ body) : IsText P (quoteMark :: (body ++ [quoteMark])) where
  balanced := .quoted h .nil
  tidy := .quoted h
  sharp := ⟨⟨_, rfl, by decide⟩, ⟨quoteMark, by rw [← List.cons_append, List.getLast?_concat], by decide⟩⟩

/-- Brackets around nothing or a text, with or without spaces at their inner sides. -/
lemma nested {o k : Char} (ho : Nesting.isOpening o = true) (hk : Nesting.isClosing k = true)
    (ha : a = [] ∨ IsText Q a) (padded : Bool) :
    IsText P (o :: ((if padded ∧ a ≠ [] then ' ' :: (a ++ [' ']) else a) ++ [k])) := by
  have hsharp : ∀ c, Nesting.isOpening c = true ∨ Nesting.isClosing c = true →
      isBlank c = false ∧ c ≠ quoteMark ∧ c ≠ ';' := by
    intro c hc
    simp only [Nesting.isOpening, Nesting.isClosing, Bool.or_eq_true, beq_iff_eq] at hc
    rcases hc with (rfl | rfl) | (rfl | rfl) <;> decide
  obtain ⟨hoblank, hoquote, -⟩ := hsharp o (.inl ho)
  obtain ⟨hkblank, hkquote, hksemicolon⟩ := hsharp k (.inr hk)
  have hotidy := IsTidy.char hoblank hoquote
  have hktidy := IsTidy.char hkblank hkquote
  have hbalanced : Balanced (fun _ => True) a := by
    rcases ha with rfl | ha
    · exact .nil
    · exact ha.balanced.mono fun _ _ => trivial
  refine ⟨.nested ho hk ?_ .nil, ?_, ⟨_, rfl, hoblank⟩, ⟨k, ?_, hkblank, hksemicolon⟩⟩
  · split
    · exact .plain (by decide) trivial (hbalanced.append (.plain (by decide) trivial .nil))
    · exact hbalanced
  · rcases ha with rfl | ha
    · simpa using hotidy.append hktidy
    · split
      · simpa using hotidy.spaced (ha.tidy.spaced hktidy)
      · exact hotidy.append (ha.tidy.append hktidy)
  · rw [← List.cons_append, List.getLast?_concat]

/-- Texts with commas and spaces between them. -/
lemma separated (hcomma : P ',') (hspace : P ' ') {parts : List (List Char)} (hne : parts ≠ [])
    (h : ∀ p ∈ parts, IsText P p) : IsText P ([',', ' '].intercalate parts) := by
  induction parts with
  | nil => exact absurd rfl hne
  | cons p parts ih =>
    obtain ⟨hp, hparts⟩ := List.forall_mem_cons.1 h
    cases parts with
    | nil => simpa using hp
    | cons q parts =>
      have hc : IsText P [','] :=
        .of_forall (by simp) (List.forall_mem_singleton.2 ⟨by decide, by decide, by decide, hcomma⟩)
      have htext : [',', ' '].intercalate (p :: q :: parts) =
          (p ++ [',']) ++ ' ' :: [',', ' '].intercalate (q :: parts) := by
        rw [List.intercalate_cons_cons]
        simp
      rw [htext]
      exact (hp.append hc).spaced hspace (ih (List.cons_ne_nil _ _) hparts)

end IsText

end ProvenTables.Sql
