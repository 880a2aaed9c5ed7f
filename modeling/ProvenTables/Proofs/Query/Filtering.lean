import ProvenTables.Proofs.Query.Evaluation
import ProvenTables.Proofs.Sql.Values

/-!
# Filters

A filter that compares a column with the literal of an integer or of a string keeps the rows with that value
in the column, and no others (`select_of_filter`).
-/

namespace ProvenTables

/-- The values that filters find: integers, and strings without quotes. -/
inductive Scalar.IsSearchable : Scalar → Prop
  | int (n : Int64) : IsSearchable (.int n)
  | string {v : String} : Sql.quoteMark ∉ v.toList → IsSearchable (.string v)

namespace Sql

open Text

/-- The names of the columns of a projection of a table. -/
def Projection.names (t : Table) : Projection → List String
  | all => t.columnNames
  | columns names => names

/-- The literal of a value that can be searched for is a literal. -/
lemma isLiteral_literalOf {x : Scalar} (h : x.IsSearchable) : IsLiteral (literalOf x) := by
  cases h with
  | int n =>
    -- a word that stands for no integer is no integer's
    have hne : ∀ word : String, readInt? word.toList = none → toString n.toInt ≠ word := by
      rintro word hword rfl
      rw [readInt?_toString] at hword
      cases hword
    exact .bare (isBare_int n.toInt) (hne "WHERE" rfl) (hne "LIMIT" rfl)
  | string h => exact .quoted h

end Sql

namespace Query

open Sql Text

variable {t : Table} {x : Scalar} {i : ℕ} {c : String} {p : Projection} {names : List String}
  {positions : List ℕ}

/-! ## Conditions -/

/-- A condition on an integer or on a string holds of the rows with that value in the place. -/
lemma holds_eq_of_type (h : x.type = .int ∨ x.type = .string) (i : ℕ) (r : Row) :
    Condition.holds ⟨i, x⟩ r = decide (r[i]? = some x) := by
  rw [Bool.eq_iff_iff, decide_eq_true_eq, Condition.holds]
  cases x <;> simp only [Scalar.type, reduceCtorEq, or_self, or_false, or_true] at h <;> split <;> simp_all

/-- The condition with a value that can be searched for holds of the rows that have it. -/
lemma holds_eq (h : x.IsSearchable) (i : ℕ) (r : Row) :
    Condition.holds ⟨i, x⟩ r = decide (r[i]? = some x) := by
  refine holds_eq_of_type ?_ i r
  cases h with
  | int n => exact .inl rfl
  | string h => exact .inr rfl

/-- The literal of a value is read as the condition with the value. -/
lemma conditionOf_literalOf (h : x.IsSearchable) (hposition : t.position? c = some i)
    (hc : t.columns[i]? = some ⟨c, x.type⟩) : conditionOf t ⟨c, literalOf x⟩ = .ok ⟨i, x⟩ := by
  have hlocate : locate t c = .ok i := locate_eq_ok_iff.2 hposition
  have htype : t.columns[i]?.map (·.type) = some x.type := by rw [hc]; rfl
  simp only [conditionOf, hlocate, bind, Except.bind, htype]
  cases h with
  | int n =>
    have htrim : trim (literalOf (.int n)).toList = (toString n.toInt).toList :=
      trim_eq (isText_bare (isBare_int n.toInt)).sharp.isTrimmed
    simp only [Scalar.type, if_true, htrim, readInt64?_toString]
    rfl
  | @string v h =>
    change Except.ok (⟨i, .string (String.ofList (stripQuotes (quote v).toList))⟩ : Condition) = _
    rw [stripQuotes_quote, String.ofList_toList]

/-! ## Projections -/

/-- The names of columns of the table have positions. -/
lemma exists_positionsOf (ht : t.columnNames.Nodup) (h : ∀ n ∈ p.names t, n ∈ t.columnNames) :
    ∃ positions, positionsOf t p = .ok positions := by
  cases p with
  | all => exact ⟨_, rfl⟩
  | columns names =>
    refine exists_mapM_ok_iff.2 fun n hn => ?_
    obtain ⟨column, hcolumn, rfl⟩ := List.mem_map.1 (h n hn)
    obtain ⟨i, hi⟩ := List.mem_iff_getElem?.1 hcolumn
    exact ⟨i, locate_eq_ok_iff.2 (Table.position?_of_distinct ht hi)⟩

/-- The elements at all places are the elements. -/
lemma filterMap_getElem?_range {α : Type} (xs : List α) :
    (List.range xs.length).filterMap (xs[·]?) = xs := by
  induction xs with
  | nil => rfl
  | cons x xs ih => simp [List.range_succ_eq_map, List.filterMap_map, ih]

/-- A plan that puts out the positions of a projection puts out its columns. -/
lemma outputNames_of_positionsOf {plan : Plan} (h : positionsOf t p = .ok plan.output) :
    plan.outputNames t = p.names t := by
  rw [Plan.outputNames]
  generalize plan.output = positions at h
  cases p with
  | all =>
    cases h
    rw [← List.map_filterMap, filterMap_getElem?_range]
    rfl
  | columns names =>
    simp only [positionsOf, mapM_eq_ok_iff] at h
    induction h with
    | nil => rfl
    | @cons name i names positions hlocate _ ih =>
      obtain ⟨column, hcolumn, rfl⟩ := Table.exists_of_position? (locate_eq_ok_iff.1 hlocate)
      rw [List.filterMap_cons, hcolumn]
      simp only [Option.map_some, ih]
      rfl

/-! ## Answers -/

/-- A query for two columns or more whose only clause compares a column with the literal of a value is
answered with the rows that have the value there, in the order of the table. -/
theorem select_of_filter (ht : t.IsSound) (hx : x.IsSearchable) (hc : t.columns[i]? = some ⟨c, x.type⟩)
    (hlength : 2 ≤ (p.names t).length) (hnames : ∀ n ∈ p.names t, n ∈ t.columnNames) (name : String) :
    ∃ positions rs, (p.names t).mapM t.position? = some positions ∧
      ((t.rows.filter fun r => r[i]? = some x).mapM (·.project? positions)) = some rs ∧
      select t ⟨name, p, some ⟨c, literalOf x⟩, none, none, none, none⟩ = .ok ⟨p.names t, .rows rs⟩ := by
  have hdistinct := firstRepeated?_eq_none_iff.1 ht.distinct
  obtain ⟨positions, hpositions⟩ := exists_positionsOf hdistinct hnames
  have hcondition := conditionOf_literalOf hx (Table.position?_of_distinct hdistinct hc) hc
  have hplan : planOf t ⟨name, p, some ⟨c, literalOf x⟩, none, none, none, none⟩ =
      .ok (Plan.ofFilter positions ⟨i, x⟩) := by
    simp only [planOf_eq, hpositions, placeOf, filterOf, hcondition, locateOptional]
    rfl
  have hlt : ∀ j ∈ positions, j < t.columns.length := output_lt hplan
  have houtput : (Plan.ofFilter positions ⟨i, x⟩).outputNames t = p.names t :=
    outputNames_of_positionsOf hpositions
  have hback := positions_of_outputNames hdistinct (p := Plan.ofFilter positions ⟨i, x⟩) hlt
  rw [houtput] at hback
  have hlength' : 2 ≤ positions.length := (forall₂_of_mapM_some hback).length_eq ▸ hlength
  obtain ⟨rs, hrs, hrun⟩ := Plan.run_of_filter ht hlt hlength' ⟨i, x⟩
  rw [houtput] at hrun
  refine ⟨positions, rs, hback, ?_, ?_⟩
  · rw [← hrs, funext (holds_eq hx i)]
  · rw [select, hplan]
    exact hrun

end Query

end ProvenTables
