import ProvenTables.Membership.Encoding
import ProvenTables.Proofs.Text.Integers
import ProvenTables.Proofs.Traverse

/-!
# Hashed texts of cells

The text that is hashed for a cell ends in the digits of its position and of its value, without a mark
between them. At one position it determines the value. At two positions the texts are equal exactly if the
value at the first begins with the digits that the second position has beyond the first
(`cellPreimage_eq_iff`).
-/

namespace ProvenTables

open Text

namespace Membership

variable {p q : ℕ} {n m : ℤ} {ds : List Char}

/-- The value `n` begins with the digits that the position `q` has beyond the position `p`, and goes on with
the value `m`. -/
def PassesDigits (p : ℕ) (n : ℤ) (q : ℕ) (m : ℤ) : Prop :=
  0 ≤ n ∧ 0 ≤ m ∧ ∃ ds ≠ [], digits q = digits p ++ ds ∧ digits n.natAbs = ds ++ digits m.natAbs

/-- Digits pass from the greater value at the lower position, which is not zero. -/
lemma PassesDigits.lt (h : PassesDigits p n q m) : 0 < p ∧ p < q ∧ m < n := by
  obtain ⟨hn, hm, ds, hne, hq, hvalue⟩ := h
  have hlength : 0 < ds.length := List.length_pos_iff.2 hne
  refine ⟨pos_of_digits_append hq hne, lt_of_length_digits_lt ?_, ?_⟩
  · rw [hq, List.length_append]
    omega
  · have hlt : m.natAbs < n.natAbs := lt_of_length_digits_lt (by rw [hvalue, List.length_append]; omega)
    omega

/-- A position with further digits takes them from the value. -/
lemma passesDigits_of_append (hne : ds ≠ []) (hq : digits q = digits p ++ ds)
    (hn : (toString n).toList = ds ++ (toString m).toList) : PassesDigits p n q m := by
  have hds : ∀ c ∈ ds, c.isDigit = true := fun c hc =>
    isDigit_of_mem_digits (hq ▸ List.mem_append_right _ hc)
  -- a sign would be the first of the digits
  have hnonneg : 0 ≤ n := by
    by_contra hneg
    obtain ⟨c, cs, rfl⟩ := List.exists_cons_of_ne_nil hne
    rw [toList_toString_int, if_pos (not_le.1 hneg), List.cons_append] at hn
    obtain rfl := (List.cons.inj hn).1
    exact absurd (hds '-' List.mem_cons_self) (by decide)
  rw [toList_toString_of_nonneg hnonneg] at hn
  have hnonneg' : 0 ≤ m := nonneg_of_forall_isDigit fun c hc =>
    isDigit_of_mem_digits (hn ▸ List.mem_append_right _ hc)
  rw [toList_toString_of_nonneg hnonneg'] at hn
  exact ⟨hnonneg, hnonneg', ds, hne, hq, hn⟩

/-- Where digits pass from the value to the position the two numerals in a row are the same. -/
lemma PassesDigits.append_eq (h : PassesDigits p n q m) :
    digits p ++ (toString n).toList = digits q ++ (toString m).toList := by
  obtain ⟨hn, hm, ds, -, hq, hvalue⟩ := h
  rw [toList_toString_of_nonneg hn, toList_toString_of_nonneg hm, hq, hvalue, List.append_assoc]

/-- Which positions and values have one text. -/
lemma append_toString_eq_iff :
    digits p ++ (toString n).toList = digits q ++ (toString m).toList ↔
      p = q ∧ n = m ∨ PassesDigits p n q m ∨ PassesDigits q m p n := by
  constructor
  · intro h
    rcases List.append_eq_append_iff.1 h with ⟨ds, hq, hn⟩ | ⟨ds, hp, hm⟩
    · by_cases hne : ds = []
      · subst hne
        rw [List.append_nil] at hq
        exact .inl ⟨(digits_inj.1 hq).symm, toString_int_inj.1 hn⟩
      · exact .inr (.inl (passesDigits_of_append hne hq hn))
    · by_cases hne : ds = []
      · subst hne
        rw [List.append_nil] at hp
        exact .inl ⟨digits_inj.1 hp, (toString_int_inj.1 hm).symm⟩
      · exact .inr (.inr (passesDigits_of_append hne hp hm))
  · rintro (⟨rfl, rfl⟩ | h | h)
    · rfl
    · exact h.append_eq
    · exact h.append_eq.symm

/-- The text of a cell with an integer is three numerals in a row. -/
lemma toList_cellPreimage_int (name : String) (p : ℕ) (n : ℤ) :
    (cellPreimage name p n).toList =
      digits (digestNat (Digest.utf8 name)) ++ (digits p ++ (toString n).toList) := by
  simp only [cellPreimage, String.toList_append, List.append_assoc]
  change (Nat.repr _).toList ++ ((Nat.repr _).toList ++ _) = _
  simp only [Nat.toList_repr, digits]

/-- The field element of a cell is the digest of its text modulo the order. -/
lemma encodeCell_of_encodeScalar (params : Params) {c : Column} {v : Scalar}
    (h : encodeScalar c.type v = .ok n) :
    encodeCell params c p v = .ok (digestNat (Digest.utf8 (cellPreimage c.name p n)) % params.order) := by
  rw [encodeCell, h]
  rfl

/-- Two texts collide if they have one field element. -/
def Collide (params : Params) (s t : String) : Prop :=
  s ≠ t ∧ digestNat (Digest.utf8 s) % params.order = digestNat (Digest.utf8 t) % params.order

/-- The hashed texts of two cells of one column name are equal exactly if the positions and the encoded values
are, or digits pass from one value to the other position. At one position they are equal exactly if the values
are encoded alike, so that two cells there have one field element only if their values are encoded alike or
their texts collide. -/
theorem cellPreimage_eq_iff (params : Params) {c d : Column} (hname : c.name = d.name) {p q : ℕ}
    {v w : Scalar} {n m : ℤ} (hn : encodeScalar c.type v = .ok n) (hm : encodeScalar d.type w = .ok m) :
    (cellPreimage c.name p n = cellPreimage d.name q m ↔
      p = q ∧ n = m ∨ PassesDigits p n q m ∨ PassesDigits q m p n) ∧
    (PassesDigits p n q m → 0 < p ∧ p < q ∧ m < n) ∧ (PassesDigits q m p n → 0 < q ∧ q < p ∧ n < m) ∧
    (p = q → (cellPreimage c.name p n = cellPreimage d.name q m ↔ n = m)) ∧
    ∃ e f, encodeCell params c p v = .ok e ∧ encodeCell params d q w = .ok f ∧
      (e = f → (p = q ∧ n = m) ∨ PassesDigits p n q m ∨ PassesDigits q m p n ∨
        Collide params (cellPreimage c.name p n) (cellPreimage d.name q m)) := by
  have htext : cellPreimage c.name p n = cellPreimage d.name q m ↔
      p = q ∧ n = m ∨ PassesDigits p n q m ∨ PassesDigits q m p n := by
    rw [← String.toList_inj, toList_cellPreimage_int, toList_cellPreimage_int, hname,
      List.append_cancel_left_eq, append_toString_eq_iff]
  refine ⟨htext, PassesDigits.lt, PassesDigits.lt, fun hpq => ?_, _, _,
    encodeCell_of_encodeScalar params hn, encodeCell_of_encodeScalar params hm, fun hef => ?_⟩
  · rw [htext]
    constructor
    · rintro (⟨-, hvalue⟩ | h | h)
      · exact hvalue
      · exact absurd hpq h.lt.2.1.ne
      · exact absurd hpq h.lt.2.1.ne'
    · exact fun hvalue => .inl ⟨hpq, hvalue⟩
  · by_cases heq : cellPreimage c.name p n = cellPreimage d.name q m
    · rcases htext.1 heq with h | h | h
      · exact .inl h
      · exact .inr (.inl h)
      · exact .inr (.inr (.inl h))
    · exact .inr (.inr (.inr ⟨heq, hef⟩))

/-- The value `115` at position `1` and the value `15` at position `11` have one field element. -/
theorem cellPreimage_eq_iff_shifted :
    encodeScalar .int (.int 115) = .ok 115 ∧ encodeScalar .int (.int 15) = .ok 15 ∧
      cellPreimage "a" 1 115 = cellPreimage "a" 11 15 ∧ PassesDigits 1 115 11 15 := by
  have hn : encodeScalar .int (.int 115) = .ok 115 := rfl
  have hm : encodeScalar .int (.int 15) = .ok 15 := rfl
  have hpasses : PassesDigits 1 115 11 15 := ⟨by decide, by decide, ['1'], by decide, by decide, by decide⟩
  obtain ⟨htext, -⟩ := cellPreimage_eq_iff .bn254 (c := ⟨"a", .int⟩) (d := ⟨"a", .int⟩) rfl hn hm
    (p := 1) (q := 11)
  exact ⟨hn, hm, htext.2 (.inr (.inl hpasses)), hpasses⟩

/-- The hashed text of a cell does not determine its position and value. -/
theorem not_injective_cellPreimage :
    ¬∀ (c : Column) (p q : ℕ) (v w : Scalar) (n m : ℤ), encodeScalar c.type v = .ok n →
      encodeScalar c.type w = .ok m → cellPreimage c.name p n = cellPreimage c.name q m →
      p = q ∧ n = m := by
  intro h
  have htext : cellPreimage "a" 1 11 = cellPreimage "a" 11 1 := by
    rw [cellPreimage, cellPreimage, String.append_assoc, String.append_assoc]
    rfl
  have hposition := (h ⟨"a", .int⟩ 1 11 (.int 11) (.int 1) 11 1 rfl rfl htext).1
  exact absurd hposition (by decide)

end Membership

end ProvenTables
