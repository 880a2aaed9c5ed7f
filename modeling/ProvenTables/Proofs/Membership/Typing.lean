import ProvenTables.Proofs.Membership.Divisibility
import ProvenTables.Proofs.Query.Evaluation

/-!
# Types of encoded cells

Every cell of a sound table, and every cell of an answer from it, is encoded as a value of the type of its
column.
-/

namespace ProvenTables.Membership

variable {params : Params} {t : Table} {expected got : ColumnType}

/-- Every cell has the type of its column. -/
def AreTyped (cells : List ((ℕ × Column) × Scalar)) : Prop := ∀ cell ∈ cells, cell.2.type = cell.1.2.type

/-- Fewer cells are typed if all are. -/
lemma AreTyped.mono {cells cells' : List ((ℕ × Column) × Scalar)} (h : AreTyped cells')
    (hsub : cells ⊆ cells') : AreTyped cells := fun cell hcell => h cell (hsub hcell)

/-- The cells of a row that fits its columns are typed. -/
lemma areTyped_row {r : Row} (hr : Table.Fits t.columns r) : AreTyped ((placedColumns t).zip r) := by
  rintro ⟨⟨i, c⟩, v⟩ hcell
  obtain ⟨hc, hv⟩ := mem_zip_placedColumns.1 hcell
  have htype := congrArg (·[i]?) hr
  simp only [List.getElem?_map, hc, hv, Option.map_some, Option.some.injEq] at htype
  exact htype

/-- Cells of the types of their columns are not refused for their types. -/
lemma encodeCells_ne {cells : List ((ℕ × Column) × Scalar)} (h : AreTyped cells) :
    (cells.mapM fun cell => encodeCell params cell.1.2 cell.1.1 cell.2) ≠
      .error (.typeMismatch expected got) := by
  intro herror
  obtain ⟨cell, hcell, herror⟩ := exists_mem_of_mapM_error herror
  rw [encodeCell, encodeScalar, if_pos (h cell hcell)] at herror
  cases hv : cell.2 with
  | float x =>
    rw [hv] at herror
    simp only [encodeValue] at herror
    split at herror <;> cases herror
  | _ =>
    rw [hv] at herror
    cases herror

/-- The roots of a table never fail for the type of a cell. -/
theorem tableRoots_ne (ht : ∀ r ∈ t.rows, Table.Fits t.columns r) :
    tableRoots params t ≠ .error (.typeMismatch expected got) := by
  intro herror
  obtain ⟨r, hr, herror⟩ := exists_mem_of_mapM_error (map_eq_error_iff.1 herror)
  exact encodeCells_ne (areTyped_row (ht r hr)) herror

/-- The columns of an answer are found, and the cells of its rows under them are cells of rows of the
table or its indexes. -/
lemma areTyped_answer (ht : t.IsSound) {p : Query.Plan} (hp : ∀ i ∈ p.output, i < t.columns.length) :
    ∃ columns, recordColumns t (p.outputNames t) = .ok columns ∧
      ∀ q r, r ∈ t.allRows → r.project? p.output = some q → AreTyped (distinctCells [] columns q) := by
  have hnames := Query.positions_of_outputNames (firstRepeated?_eq_none_iff.1 ht.distinct) hp
  by_cases hempty : p.outputNames t = []
  · -- an answer without columns has empty rows, for which no cell is encoded
    rw [hempty] at hnames ⊢
    have houtput : [] = p.output := Option.some.inj hnames
    refine ⟨placedColumns t, rfl, fun q r _ hq cell hcell => ?_⟩
    rw [← houtput] at hq
    cases hq
    exact absurd ((distinctCells_sublist [] (placedColumns t) []).subset hcell) (by simp)
  · obtain ⟨columns, hcolumns, hplaces⟩ := exists_recordColumns hnames hempty
    refine ⟨columns, hcolumns, fun q r hr hq => ?_⟩
    exact (areTyped_row (ht.rows r hr).fits).mono fun cell hcell =>
      subset_of_project? hplaces hq ((distinctCells_sublist [] columns q).subset hcell)

/-- The roots of the rows of an answer never fail for the type of a cell. -/
theorem recordRoots_ne (ht : t.IsSound) {s : Sql.Select} {a : Query.Answer}
    (h : Query.select t s = .ok a) :
    recordRoots params t a.columns a.result.allRows ≠ .error (.typeMismatch expected got) := by
  obtain ⟨p, hplan, hrun⟩ := bind_eq_ok_iff.1 h
  obtain ⟨b, hb, hnames, hrows⟩ := Query.Plan.exists_answer ht (Query.output_lt hplan)
  obtain rfl : b = a := Except.ok.inj (hb.symm.trans hrun)
  obtain ⟨columns, hcolumns, htyped⟩ := areTyped_answer ht (Query.output_lt hplan)
  intro herror
  rw [recordRoots, hnames, hcolumns] at herror
  obtain ⟨q, hq, herror⟩ := exists_mem_of_mapM_error (map_eq_error_iff.1 herror)
  obtain ⟨r, hr, hproject⟩ := hrows q hq
  exact encodeCells_ne (htyped q r hr hproject) herror

end ProvenTables.Membership
