import Mathlib.Data.List.TakeWhile
import Mathlib.Tactic
import ProvenTables.Text.Blank

/-!
# Trimming

A text without blanks at its ends is what is left of it when it is trimmed, with any blanks around it.
-/

namespace ProvenTables.Text

/-- A statement about the characters of a text is decided at those characters, not at every character
there is. -/
instance decidableForallMem (cs : List Char) (p : Char → Prop) [DecidablePred p] :
    Decidable (∀ c ∈ cs, p c) :=
  List.decidableBAll p cs

/-- A digit is no blank. -/
lemma isBlank_of_isDigit {c : Char} (h : c.isDigit = true) : isBlank c = false := by
  have hd : 48 ≤ c.toNat ∧ c.toNat ≤ 57 := by simpa [Char.isDigit, UInt32.le_iff_toNat_le] using h
  simp only [isBlank, Bool.or_eq_false_iff, Bool.and_eq_false_iff, decide_eq_false_iff_not,
    beq_eq_false_iff_ne]
  omega

/-- Nothing is dropped from characters that start with one that is kept. -/
lemma dropWhile_eq_self {p : Char → Bool} {cs : List Char} (h : ∀ c ∈ cs.head?, p c = false) :
    cs.dropWhile p = cs := by
  cases cs with
  | nil => rfl
  | cons c cs => exact List.dropWhile_cons_of_neg (by simp [h c rfl])

/-- A text is left where the first character without a property stands. -/
lemma span_append {p : Char → Bool} {a b : List Char} (ha : ∀ c ∈ a, p c = true)
    (hb : ∀ c ∈ b.head?, p c = false) : (a ++ b).takeWhile p = a ∧ (a ++ b).dropWhile p = b := by
  rw [List.takeWhile_append_of_pos ha, List.dropWhile_append_of_pos ha]
  refine ⟨?_, dropWhile_eq_self hb⟩
  cases b with
  | nil => simp
  | cons c b => rw [List.takeWhile_cons_of_neg (by simp [hb c rfl]), List.append_nil]

/-- Nothing is dropped from characters that end with one that is kept. -/
lemma dropEndWhile_eq_self {p : Char → Bool} {cs : List Char} (h : ∀ c ∈ cs.getLast?, p c = false) :
    dropEndWhile p cs = cs := by
  rw [dropEndWhile, dropWhile_eq_self (by simpa using h), List.reverse_reverse]

/-- Characters at the end that are dropped can be left out before. -/
lemma dropEndWhile_append {p : Char → Bool} {cs ds : List Char} (h : ∀ c ∈ ds, p c = true) :
    dropEndWhile p (cs ++ ds) = dropEndWhile p cs := by
  rw [dropEndWhile, List.reverse_append, List.dropWhile_append_of_pos (by simpa using h), dropEndWhile]

/-- What is left and what has been dropped at the end are all characters. -/
lemma dropEndWhile_append_takeWhile (p : Char → Bool) (cs : List Char) :
    dropEndWhile p cs ++ (cs.reverse.takeWhile p).reverse = cs := by
  rw [dropEndWhile, ← List.reverse_append, List.takeWhile_append_dropWhile, List.reverse_reverse]

/-- Whether a text neither begins nor ends with a blank. -/
structure IsTrimmed (cs : List Char) : Prop where
  head : ∀ c ∈ cs.head?, isBlank c = false
  last : ∀ c ∈ cs.getLast?, isBlank c = false

/-- No characters have no blanks at their ends. -/
lemma isTrimmed_nil : IsTrimmed [] := ⟨by simp, by simp⟩

/-- Blanks around a trimmed text are what trimming takes away. -/
lemma trim_append {a cs b : List Char} (h : IsTrimmed cs) (ha : ∀ c ∈ a, isBlank c = true)
    (hb : ∀ c ∈ b, isBlank c = true) : trim (a ++ (cs ++ b)) = cs := by
  rw [trim, trimLeft, List.dropWhile_append_of_pos ha, trimRight]
  cases cs with
  | nil =>
    rw [List.nil_append, List.dropWhile_eq_nil_iff.2 hb]
    rfl
  | cons c cs =>
    rw [dropWhile_eq_self (by simpa using h.head), dropEndWhile_append hb, dropEndWhile_eq_self h.last]

/-- Characters without blanks at their ends are left as they are. -/
lemma trim_eq {cs : List Char} (h : IsTrimmed cs) : trim cs = cs := by
  simpa using trim_append (a := []) (b := []) h (by simp) (by simp)

/-- A blank before such characters is dropped. -/
lemma trim_space_append {cs : List Char} (h : IsTrimmed cs) : trim (' ' :: cs) = cs := by
  simpa using trim_append (a := [' ']) (b := []) h (by decide) (by simp)

/-- A blank after such characters is dropped. -/
lemma trim_append_space {cs : List Char} (h : IsTrimmed cs) : trim (cs ++ [' ']) = cs := by
  simpa using trim_append (a := []) (b := [' ']) h (by simp) (by decide)

/-- A prefix is found if and only if the characters are the prefix and the rest. -/
lemma after?_eq_some_iff {p cs r : List Char} : after? p cs = some r ↔ cs = p ++ r := by
  constructor
  · intro h
    induction p generalizing cs with
    | nil =>
      cases h
      rfl
    | cons a p ih =>
      cases cs with
      | nil => cases h
      | cons c cs =>
        rw [after?] at h
        split at h
        · rename_i hac
          rw [hac, ih h, List.cons_append]
        · cases h
  · rintro rfl
    exact after?_append p r

/-! ## Splitting -/

/-- Characters without a separator are one part. -/
lemma splitBy_eq_singleton {p : Char → Bool} {a : List Char} (h : ∀ c ∈ a, p c = false) :
    splitBy p a = [a] := by
  induction a with
  | nil => rfl
  | cons c a ih =>
    obtain ⟨hc, ha⟩ := List.forall_mem_cons.1 h
    simp [splitBy, hc, ih ha]

/-- The part before the first separator comes first, and the rest is split as it would be alone. -/
lemma splitBy_append {p : Char → Bool} {a : List Char} {z : Char} (h : ∀ c ∈ a, p c = false)
    (hz : p z = true) (b : List Char) : splitBy p (a ++ z :: b) = a :: splitBy p b := by
  induction a with
  | nil => simp [splitBy, hz]
  | cons c a ih =>
    obtain ⟨hc, ha⟩ := List.forall_mem_cons.1 h
    simp [splitBy, hc, ih ha]

end ProvenTables.Text
