import Mathlib.Tactic
import ProvenTables.Query.Cosine
import ProvenTables.Scalar

/-!
# The order of scalars

Values are ordered by their type, then by numbers that stand for them and then by their text (`order_eq`), so
that the order is a linear one: transitive, the reverse of itself with its sides exchanged, and equal for a
value and itself only. Scores are ordered alike, up to undefined ones.
-/

namespace ProvenTables

open Std

/-! ## Numbers -/

namespace Binary64

/-- The total order of numbers is transitive. -/
instance : TransCmp totalCompare := inferInstanceAs (TransCmp (compareOn rank))

/-- The place in the order determines the bits. -/
lemma rank_inj {x y : Binary64} : x.rank = y.rank ↔ x = y := by
  refine ⟨fun h => ?_, fun h => h ▸ rfl⟩
  have hx := x.bits.toNat_lt
  have hy := y.bits.toNat_lt
  suffices hbits : x.bits.toNat = y.bits.toNat by
    cases x
    cases y
    exact congrArg mk (UInt64.toNat_inj.1 hbits)
  simp only [rank, isNegative, magnitude, decide_eq_true_eq] at h
  split_ifs at h <;> omega

end Binary64

/-! ## Scalars -/

namespace Scalar

/-- The numbers that a value is ordered by among those of its type. -/
def numbers : Scalar → List ℤ
  | int n => [n.toInt]
  | float x => [x.rank]
  | bool b => [b.toNat]
  | string _ => []
  | datetime t => [t.date.year, t.date.month, t.date.day, t.second, t.nanos]
  | floats xs => xs.map Binary64.rank

/-- The text that a value is ordered by among those of its type. -/
def text : Scalar → String
  | string s => s
  | _ => ""

/-- Natural numbers are compared as integers are. -/
lemma compare_natCast (m n : ℕ) : compare (m : ℤ) n = compare m n := by
  simp only [compare, compareOfLessAndEq, Int.ofNat_lt, Int.natCast_inj]

/-- Lists of numbers are compared by the ranks of their entries. -/
lemma orderFloats_eq (xs ys : List Binary64) :
    orderFloats xs ys = compare (xs.map Binary64.rank) (ys.map Binary64.rank) := by
  induction xs generalizing ys with
  | nil => cases ys <;> rfl
  | cons x xs ih =>
    cases ys with
    | nil => rfl
    | cons y ys =>
      rw [orderFloats, ih, List.map_cons, List.map_cons, List.compare_cons_cons, Binary64.totalCompare]

/-- Values of one type are ordered by their numbers, then by their text. -/
lemma order_of_type_eq {a b : Scalar} (h : a.type = b.type) :
    a.order b = (compare a.numbers b.numbers).then (compare a.text b.text) := by
  have hself : compare "" "" = .eq := ReflCmp.compare_self
  cases a with
  | string s =>
    cases b <;> cases h
    rfl
  | floats xs =>
    cases b <;> cases h
    exact (orderFloats_eq _ _).trans Ordering.then_eq.symm
  | _ =>
    cases b <;> cases h
    simp only [order, Timestamp.order, Date.order, Binary64.totalCompare, numbers, text, hself,
      List.compare_cons_cons, List.compare_nil_nil, Ordering.then_eq, compare_natCast, Ordering.then_assoc]

/-- Values of different types are ordered by them. -/
lemma order_of_type_ne {a b : Scalar} (h : a.type ≠ b.type) :
    a.order b = compare a.typeRank b.typeRank := by
  cases a <;> cases b <;> first | exact absurd rfl h | rfl

/-- Values have the same rank of their types if and only if they have the same type. -/
lemma typeRank_inj {a b : Scalar} : a.typeRank = b.typeRank ↔ a.type = b.type := by
  cases a <;> cases b <;> simp [typeRank, type]

/-- Values are ordered by type, then by numbers, then by text. -/
theorem order_eq :
    order = compareLex (compareOn typeRank) (compareLex (compareOn numbers) (compareOn text)) := by
  funext a b
  rw [compareLex, compareOn, compareLex, compareOn, compareOn]
  have hself : ∀ n : ℕ, compare n n = .eq := fun n => ReflCmp.compare_self
  by_cases h : a.type = b.type
  · rw [typeRank_inj.2 h, hself, Ordering.eq_then, order_of_type_eq h]
  · have hne : compare a.typeRank b.typeRank ≠ .eq := fun heq =>
      h (typeRank_inj.1 (LawfulEqCmp.eq_of_compare heq))
    rw [order_of_type_ne h]
    cases hrank : compare a.typeRank b.typeRank with
    | eq => exact absurd hrank hne
    | lt | gt => rfl

/-- The numbers and the text of a value of a type determine it. -/
lemma eq_of_numbers_eq {a b : Scalar} (htype : a.type = b.type) (hnumbers : a.numbers = b.numbers)
    (htext : a.text = b.text) : a = b := by
  cases a with
  | int n =>
    cases b <;> cases htype
    exact congrArg int (Int64.toInt_inj.1 (List.singleton_inj.1 hnumbers))
  | float x =>
    cases b <;> cases htype
    exact congrArg float (Binary64.rank_inj.1 (List.singleton_inj.1 hnumbers))
  | bool c =>
    cases b <;> cases htype
    have hinj : ∀ c d : Bool, (c.toNat : ℤ) = d.toNat → c = d := by decide
    exact congrArg bool (hinj _ _ (List.singleton_inj.1 hnumbers))
  | string s =>
    cases b <;> cases htype
    exact congrArg string htext
  | datetime t =>
    cases b <;> cases htype
    rename_i u
    -- the fields determine a timestamp, whose other components are proofs
    obtain ⟨⟨year, month, day, _⟩, second, nanos, _, _, _⟩ := t
    obtain ⟨⟨year', month', day', _⟩, second', nanos', _, _, _⟩ := u
    simp only [numbers, List.cons.injEq, Int.natCast_inj, and_true] at hnumbers
    obtain ⟨rfl, rfl, rfl, rfl, rfl⟩ := hnumbers
    rfl
  | floats xs =>
    cases b <;> cases htype
    exact congrArg floats (List.map_injective_iff.2 (fun _ _ => Binary64.rank_inj.1) hnumbers)

/-- The order of values is transitive. -/
instance : TransCmp order := by
  rw [order_eq]
  infer_instance

/-- Values are equal in the order exactly if they are one value. -/
theorem order_eq_eq_iff {a b : Scalar} : a.order b = .eq ↔ a = b := by
  rw [order_eq, compareLex, compareOn, compareLex, compareOn, compareOn, Ordering.then_eq_eq,
    Ordering.then_eq_eq]
  constructor
  · rintro ⟨hrank, hnumbers, htext⟩
    exact eq_of_numbers_eq (typeRank_inj.1 (LawfulEqCmp.eq_of_compare hrank))
      (LawfulEqCmp.eq_of_compare hnumbers) (LawfulEqCmp.eq_of_compare htext)
  · rintro rfl
    exact ⟨ReflCmp.compare_self, ReflCmp.compare_self, ReflCmp.compare_self⟩

end Scalar

end ProvenTables
