import ProvenTables.Proofs.Text.Blank
import ProvenTables.Proofs.Traverse
import ProvenTables.Sql.Nesting

/-!
# Balanced texts

In a balanced text quotes and brackets come in pairs, so that what follows it stands at the same level.
A scan for separators goes past all of a balanced text but the characters outside of its quotes and
brackets (`cutAt_append`), and a scan for the end of a group goes past all of it (`groupsFrom_append`).
-/

namespace ProvenTables.Sql

open Text

/-- Whether a character is neither a quote nor a bracket. -/
def IsPlain (c : Char) : Prop :=
  c ≠ quoteMark ∧ Nesting.isOpening c = false ∧ Nesting.isClosing c = false

/-- Whether a character is plain can be decided. -/
instance (c : Char) : Decidable (IsPlain c) := by unfold IsPlain; infer_instance

/-- Texts in which quotes and brackets come in pairs, and every character outside of them satisfies the
given predicate. -/
inductive Balanced : (Char → Prop) → List Char → Prop
  | nil {P} : Balanced P []
  | plain {P c cs} : IsPlain c → P c → Balanced P cs → Balanced P (c :: cs)
  | quoted {P body cs} : quoteMark ∉ body → Balanced P cs →
      Balanced P (quoteMark :: (body ++ quoteMark :: cs))
  | nested {P o k body cs} : Nesting.isOpening o = true → Nesting.isClosing k = true →
      Balanced (fun _ => True) body → Balanced P cs → Balanced P (o :: (body ++ k :: cs))

namespace Balanced

variable {P Q : Char → Prop} {a b : List Char}

/-- Balanced texts in a row are balanced. -/
lemma append (ha : Balanced P a) (hb : Balanced P b) : Balanced P (a ++ b) := by
  induction ha with
  | nil => exact hb
  | plain hc hP _ ih => exact .plain hc hP (ih hb)
  | quoted hbody _ ih => simpa using quoted hbody (ih hb)
  | nested ho hk hbody _ _ ih => simpa using nested ho hk hbody (ih hb)

/-- A text that is balanced with a property is balanced with a weaker one. -/
lemma mono (hPQ : ∀ c, P c → Q c) (ha : Balanced P a) : Balanced Q a := by
  induction ha with
  | nil => exact .nil
  | plain hc hP _ ih => exact .plain hc (hPQ _ hP) (ih hPQ)
  | quoted hbody _ ih => exact .quoted hbody (ih hPQ)
  | nested ho hk hbody _ _ ih => exact .nested ho hk hbody (ih hPQ)

/-- A text of plain characters with a property is balanced. -/
lemma of_forall (h : ∀ c ∈ a, IsPlain c ∧ P c) : Balanced P a := by
  induction a with
  | nil => exact .nil
  | cons c a ih =>
    obtain ⟨hc, ha⟩ := List.forall_mem_cons.1 h
    exact .plain hc.1 hc.2 (ih ha)

end Balanced

/-! ## Nesting -/

namespace Nesting

variable {c : Char} {d : ℕ}

/-- An opening bracket is no quote. -/
lemma ne_quoteMark_of_isOpening (h : isOpening c = true) : c ≠ quoteMark := by
  rintro rfl
  cases h

/-- A closing bracket is no quote. -/
lemma ne_quoteMark_of_isClosing (h : isClosing c = true) : c ≠ quoteMark := by
  rintro rfl
  cases h

/-- An opening bracket is no letter. -/
lemma isAlpha_of_isOpening (h : isOpening c = true) : c.isAlpha = false := by
  simp only [isOpening, Bool.or_eq_true, beq_iff_eq] at h
  rcases h with rfl | rfl <;> rfl

/-- A closing bracket does not open one. -/
lemma isOpening_of_isClosing (h : isClosing c = true) : isOpening c = false := by
  simp only [isClosing, Bool.or_eq_true, beq_iff_eq] at h
  rcases h with rfl | rfl <;> rfl

/-- A quote opens or closes a text. -/
lemma next_quoteMark (s : Nesting) : s.next quoteMark = { s with quoted := !s.quoted } := if_pos rfl

/-- A plain character changes nothing. -/
lemma next_of_isPlain (s : Nesting) (h : IsPlain c) : s.next c = s := by
  simp [next, h.1, h.2.1, h.2.2]

/-- An opening bracket goes one level deeper. -/
lemma next_of_isOpening (h : isOpening c = true) : next ⟨false, d⟩ c = ⟨false, d + 1⟩ := by
  simp [next, ne_quoteMark_of_isOpening h, h]

/-- A closing bracket goes one level up. -/
lemma next_of_isClosing (h : isClosing c = true) : next ⟨false, d⟩ c = ⟨false, d - 1⟩ := by
  simp [next, ne_quoteMark_of_isClosing h, isOpening_of_isClosing h, h]

/-- Within quotes nothing changes. -/
lemma next_quoted (h : c ≠ quoteMark) : next ⟨true, d⟩ c = ⟨true, d⟩ := by
  simp [next, h]

/-- The nesting after a text. -/
def after (s : Nesting) (cs : List Char) : Nesting := cs.foldl next s

/-- Whether no character of a text stands at the top level. -/
def IsInner : Nesting → List Char → Prop
  | _, [] => True
  | s, c :: cs => s.isTop c = false ∧ IsInner (s.next c) cs

/-- A text stays inside if each of its parts does. -/
lemma isInner_append {s : Nesting} {a b : List Char} :
    s.IsInner (a ++ b) ↔ s.IsInner a ∧ (s.after a).IsInner b := by
  induction a generalizing s with
  | nil => simp [IsInner, after]
  | cons c a ih => simp [IsInner, ih, after, and_assoc]

/-- The nesting after two texts is that of the second after the first. -/
lemma after_append {s : Nesting} {a b : List Char} : s.after (a ++ b) = (s.after a).after b :=
  List.foldl_append

/-- A quoted text stays inside until its last quote. -/
lemma inner_quoted {body : List Char} (h : quoteMark ∉ body) :
    IsInner ⟨true, d⟩ (body ++ [quoteMark]) ∧ after ⟨true, d⟩ (body ++ [quoteMark]) = ⟨false, d⟩ := by
  induction body with
  | nil => exact ⟨⟨rfl, trivial⟩, rfl⟩
  | cons c body ih =>
    rw [List.mem_cons, not_or] at h
    obtain ⟨hinner, hafter⟩ := ih h.2
    refine ⟨⟨by simp [isTop], ?_⟩, ?_⟩
    · rwa [next_quoted (Ne.symm h.1)]
    · rw [List.cons_append, after, List.foldl_cons, next_quoted (Ne.symm h.1)]
      exact hafter

/-- All of a balanced text in brackets stands below the top level. -/
lemma inner_balanced {P : Char → Prop} {cs : List Char} (h : Balanced P cs) :
    IsInner ⟨false, d + 1⟩ cs ∧ after ⟨false, d + 1⟩ cs = ⟨false, d + 1⟩ := by
  -- below the top no character is at the top, so nothing is asked of the text in brackets
  have htop : ∀ c, isTop ⟨false, d + 1⟩ c = false := fun c => by simp [isTop]
  induction h generalizing d with
  | nil => exact ⟨trivial, rfl⟩
  | @plain P c cs hc hP _ ih =>
    obtain ⟨hinner, hafter⟩ := ih htop
    refine ⟨⟨htop c, ?_⟩, ?_⟩
    · rwa [next_of_isPlain _ hc]
    · rw [after, List.foldl_cons, next_of_isPlain _ hc]
      exact hafter
  | @quoted P body cs hbody _ ih =>
    obtain ⟨hinner, hafter⟩ := ih htop
    obtain ⟨hinner', hafter'⟩ := inner_quoted (d := d + 1) hbody
    rw [List.append_cons]
    refine ⟨⟨htop _, ?_⟩, ?_⟩
    · rw [next_quoteMark]
      refine isInner_append.2 ⟨hinner', ?_⟩
      rwa [Bool.not_false, hafter']
    · rw [after, List.foldl_cons, next_quoteMark, ← after, after_append]
      exact (congrArg (after · cs) hafter').trans hafter
  | @nested P o k body cs ho hk _ _ ihbody ih =>
    obtain ⟨hinner, hafter⟩ := ih htop
    obtain ⟨hinner', hafter'⟩ := ihbody (d := d + 1) fun c => by simp [isTop]
    refine ⟨⟨htop _, ?_⟩, ?_⟩
    · rw [next_of_isOpening ho]
      refine isInner_append.2 ⟨hinner', ?_⟩
      rw [hafter']
      refine ⟨by simp [isTop], ?_⟩
      rwa [next_of_isClosing hk]
    · rw [after, List.foldl_cons, next_of_isOpening ho, ← after, after_append, hafter', after,
        List.foldl_cons, next_of_isClosing hk]
      exact hafter

end Nesting

/-! ## Separators -/

section

variable {sep : Char} {s : Nesting} {cs r : List Char}

/-- Cutting gives at least one part. -/
lemma cutAt_ne_nil (sep : Char) (s : Nesting) (cs : List Char) : cutAt sep s cs ≠ [] := by
  cases cs with
  | nil => simp [cutAt]
  | cons c cs =>
    rw [cutAt]
    split
    · simp
    · split <;> simp

/-- Where nothing is cut a character belongs to the first part. -/
lemma cutAt_cons {c : Char} (h : (s.isTop c && c == sep) = false) :
    cutAt sep s (c :: cs) = (cutAt sep (s.next c) cs).modifyHead (c :: ·) := by
  rw [cutAt, h]
  cases hcut : cutAt sep (s.next c) cs with
  | nil => exact absurd hcut (cutAt_ne_nil _ _ _)
  | cons part parts => simp

/-- What stays inside belongs to the first part. -/
lemma cutAt_inner (h : s.IsInner cs) :
    cutAt sep s (cs ++ r) = (cutAt sep (s.after cs) r).modifyHead (cs ++ ·) := by
  induction cs generalizing s with
  | nil => exact (congrFun List.modifyHead_id _).symm
  | cons c cs ih =>
    rw [List.cons_append, cutAt_cons (by simp [h.1]), ih h.2, List.modifyHead_modifyHead]
    rfl

/-- A scan for separators goes past a balanced text without any. -/
theorem cutAt_append (hsep : Nesting.isOpening sep = false) (h : Balanced (· ≠ sep) cs) :
    cutAt sep .top (cs ++ r) = (cutAt sep .top r).modifyHead (cs ++ ·) := by
  -- the induction is on `Balanced` with its predicate free, since text in brackets has another one
  generalize hP : (· ≠ sep) = P at h
  induction h with
  | nil => exact (congrFun List.modifyHead_id _).symm
  | @plain P c cs hc hcP _ ih =>
    subst hP
    rw [List.cons_append, cutAt_cons (by simp [hcP]), Nesting.next_of_isPlain _ hc, ih rfl,
      List.modifyHead_modifyHead]
    rfl
  | @quoted P body cs hbody _ ih =>
    -- a separator inside quotes does not cut
    obtain ⟨hinner, hafter⟩ := Nesting.inner_quoted (d := 0) hbody
    have hstep : cutAt sep ⟨true, 0⟩ ((body ++ [quoteMark]) ++ (cs ++ r)) =
        (cutAt sep .top (cs ++ r)).modifyHead ((body ++ [quoteMark]) ++ ·) :=
      (cutAt_inner hinner).trans (by rw [hafter]; rfl)
    rw [List.append_cons, List.cons_append, List.append_assoc, cutAt_cons (by simp [Nesting.isTop]),
      Nesting.next_quoteMark]
    refine (congrArg (List.modifyHead (quoteMark :: ·)) hstep).trans ?_
    rw [ih hP, List.modifyHead_modifyHead, List.modifyHead_modifyHead]
    congr 1
    ext1 x
    simp
  | @nested P o k body cs ho hk hbody _ _ ih =>
    -- a separator inside brackets does not cut either
    obtain ⟨hinner, hafter⟩ := Nesting.inner_balanced (d := 0) hbody
    have hclose :
        cutAt sep ⟨false, 1⟩ (k :: (cs ++ r)) = (cutAt sep .top (cs ++ r)).modifyHead (k :: ·) := by
      rw [cutAt_cons (by simp [Nesting.isTop]), Nesting.next_of_isClosing hk]
      rfl
    have hne : o ≠ sep := by
      rintro rfl
      simp [ho] at hsep
    rw [List.cons_append, List.append_assoc, List.cons_append, cutAt_cons (by simp [hne]),
      show Nesting.top.next o = ⟨false, 1⟩ from Nesting.next_of_isOpening ho, cutAt_inner hinner, hafter,
      hclose, ih hP]
    simp only [List.modifyHead_modifyHead]
    congr 1
    ext1 x
    simp

/-- A balanced text without separators is one part. -/
lemma cutAt_balanced (hsep : Nesting.isOpening sep = false) (h : Balanced (· ≠ sep) cs) :
    cutAt sep .top cs = [cs] := by
  simpa [cutAt] using cutAt_append (r := []) hsep h

/-- A balanced text before a separator is the first part. -/
lemma cutAt_separated (hsep : IsPlain sep) (h : Balanced (· ≠ sep) cs) :
    cutAt sep .top (cs ++ sep :: r) = cs :: cutAt sep .top r := by
  have htop : (Nesting.top.isTop sep && sep == sep) = true := by
    simp [Nesting.isTop, Nesting.top, hsep.1, hsep.2.2]
  rw [cutAt_append hsep.2.1 h, cutAt, if_pos htop, Nesting.next_of_isPlain _ hsep]
  simp

/-- A text of balanced parts with separators between them is split into the parts. -/
theorem splitTop_intercalate (hsep : IsPlain sep) (hspace : sep ≠ ' ') {parts : List (List Char)}
    (hne : parts ≠ []) (h : ∀ p ∈ parts, Balanced (· ≠ sep) p ∧ IsTrimmed p) :
    splitTop sep ([sep, ' '].intercalate parts) = parts := by
  induction parts with
  | nil => exact absurd rfl hne
  | cons p parts ih =>
    obtain ⟨⟨hp, htrimmed⟩, hparts⟩ := List.forall_mem_cons.1 h
    cases parts with
    | nil => simp [splitTop, cutAt_balanced hsep.2.1 hp, trim_eq htrimmed]
    | cons q parts =>
      have htrim : ∀ l : List (List Char), (l.modifyHead (' ' :: ·)).map trim = l.map trim := by
        intro l
        cases l <;> rfl
      have hrest : (cutAt sep .top ([sep, ' '].intercalate (q :: parts))).map trim = q :: parts :=
        ih (List.cons_ne_nil _ _) hparts
      have hnext : Nesting.top.next ' ' = .top := Nesting.next_of_isPlain _ (by decide)
      rw [List.intercalate_cons_cons, List.append_assoc, splitTop, List.cons_append,
        cutAt_separated hsep hp, List.map_cons, trim_eq htrimmed, List.cons_append, List.nil_append,
        cutAt_cons (by simp [Ne.symm hspace]), htrim, hnext, hrest]

end

/-! ## Groups -/

/-- A scan for the end of a group goes past a balanced text. -/
theorem groupsFrom_append {P : Char → Prop} {cs : List Char} (h : Balanced P cs) (d : ℕ)
    (text r : List Char) :
    groupsFrom (.inside false d text) (cs ++ r) = groupsFrom (.inside false d (cs.reverse ++ text)) r := by
  have hquoted : ∀ (body text r : List Char) (d : ℕ), quoteMark ∉ body →
      groupsFrom (.inside true d text) (body ++ quoteMark :: r) =
        groupsFrom (.inside false d (quoteMark :: (body.reverse ++ text))) r := by
    intro body
    induction body with
    | nil => simp [groupsFrom]
    | cons c body ih =>
      intro text r d hbody
      rw [List.mem_cons, not_or] at hbody
      have hc : (c != quoteMark) = true := bne_iff_ne.2 (Ne.symm hbody.1)
      simp [groupsFrom, hc, ih _ _ _ hbody.2]
  induction h generalizing d text r with
  | nil => rfl
  | @plain P c cs hc _ _ ih => simp [groupsFrom, hc.1, hc.2.1, hc.2.2, ih]
  | @quoted P body cs hbody _ ih => simp [groupsFrom, hquoted _ _ _ _ hbody, ih]
  | @nested P o k body cs ho hk _ _ ihbody ih =>
    simp [groupsFrom, Nesting.ne_quoteMark_of_isOpening ho, ho, ihbody,
      Nesting.ne_quoteMark_of_isClosing hk, Nesting.isOpening_of_isClosing hk, hk, ih]

end ProvenTables.Sql
