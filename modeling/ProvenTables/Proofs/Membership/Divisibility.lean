import ProvenTables.Membership.Prover
import ProvenTables.Proofs.Digest
import ProvenTables.Proofs.Membership.Preimage
import ProvenTables.Proofs.Query.Rows

/-!
# Divisibility

Records that are projected rows of a table have their roots among those of the table, none of them more
often, so that their value divides that of the table at every point. A claim of such records is proved
exactly if the floats of the table can be scaled and the challenge is no root of the records
(`isAccepted_prove_iff`).
-/

namespace ProvenTables.Membership

variable {params : Params} {t : Table}

/-! ## Values at a point -/

/-- The value of a polynomial is the product of the differences from its roots. -/
lemma evaluate_eq_prod (roots : List ℕ) (point : ℕ) :
    evaluate roots point = (roots.map fun e : ℕ => (point : ℤ) - e).prod := by
  have hfold : ∀ (roots : List ℕ) (acc : ℤ),
      roots.foldl (fun acc (e : ℕ) => acc * ((point : ℤ) - e)) acc =
        acc * (roots.map fun e : ℕ => (point : ℤ) - e).prod := by
    intro roots
    induction roots with
    | nil => simp
    | cons e es ih =>
      intro acc
      rw [List.foldl_cons, ih, List.map_cons, List.prod_cons, mul_assoc]
  exact (hfold roots 1).trans (one_mul _)

/-- The value of roots that are among others divides the value of the others. -/
lemma evaluate_dvd {as bs : List ℕ} (h : as.Subperm bs) (point : ℕ) :
    evaluate as point ∣ evaluate bs point := by
  obtain ⟨cs, hperm, hsub⟩ := List.subperm_iff.1 (subperm_map (fun e : ℕ => (point : ℤ) - e) h)
  rw [evaluate_eq_prod, evaluate_eq_prod, ← hperm.prod_eq]
  exact hsub.prod_dvd_prod

/-- A polynomial is zero exactly at its roots. -/
lemma evaluate_eq_zero_iff {roots : List ℕ} {point : ℕ} : evaluate roots point = 0 ↔ point ∈ roots := by
  rw [evaluate_eq_prod, List.prod_eq_zero_iff, List.mem_map]
  constructor
  · rintro ⟨e, he, hzero⟩
    obtain rfl : point = e := by omega
    exact he
  · exact fun h => ⟨point, h, sub_self _⟩

/-- Roots among those of a table have a witness of zero at every point that is none of them. -/
lemma ofRoots_of_subperm (params : Params) {as bs : List ℕ} {point : ℕ} (h : as.Subperm bs)
    (hpoint : point ∉ as) : ∃ w, Witness.ofRoots params bs as point = .ok w ∧ w.lhs = w.rhs := by
  have hzero : evaluate as point ≠ 0 := fun hz => hpoint (evaluate_eq_zero_iff.1 hz)
  refine ⟨_, if_neg hzero, ?_⟩
  rw [floorDiv_eq_fdiv hzero, Int.mul_fdiv_cancel_of_dvd (evaluate_dvd h point)]

/-- There is no witness at a root of the records. -/
lemma ofRoots_of_mem {as bs : List ℕ} {point : ℕ} (h : point ∈ as) :
    Witness.ofRoots params bs as point = .error .challengeIsRoot :=
  if_pos (evaluate_eq_zero_iff.2 h)

/-! ## Cells -/

/-- The cells of a row with their columns. -/
lemma mem_zip_placedColumns {r : Row} {i : ℕ} {c : Column} {v : Scalar} :
    ((i, c), v) ∈ (placedColumns t).zip r ↔ t.columns[i]? = some c ∧ r[i]? = some v := by
  simp only [List.mem_iff_getElem?, List.getElem?_zip_eq_some, placedColumns, List.getElem?_map,
    List.getElem?_zipIdx, Option.map_map, Option.map_eq_some_iff, Function.comp_apply, zero_add]
  constructor
  · rintro ⟨k, ⟨d, hd, hcell⟩, hv⟩
    cases hcell
    exact ⟨hd, hv⟩
  · rintro ⟨hc, hv⟩
    exact ⟨i, ⟨c, hc, rfl⟩, hv⟩

/-- The text of a cell is three numerals in a row. -/
lemma toList_cellPreimage (name : String) (position value : ℕ) :
    (cellPreimage name position value).toList =
      Nat.toDigits 10 (digestNat (Digest.utf8 name)) ++ Nat.toDigits 10 position ++
        Nat.toDigits 10 value := by
  rw [toList_cellPreimage_int, Text.toList_toString_of_nonneg (Int.natCast_nonneg value), Int.natAbs_natCast,
    ← List.append_assoc]
  rfl

/-- Whether a float can be scaled. -/
def IsScaled : Scalar → Prop
  | .float x => (x.mul fixedPointScale).isFinite = true
  | _ => True

/-- Whether a value is scaled to a finite number can be decided. -/
instance : DecidablePred IsScaled
  | .float x => inferInstanceAs (Decidable ((x.mul fixedPointScale).isFinite = true))
  | .int _ | .bool _ | .string _ | .datetime _ | .floats _ => .isTrue trivial

/-- Every float of the table is finite in units of `1e-8`. -/
def IsScalable (t : Table) : Prop := ∀ r ∈ t.rows, ∀ v ∈ r, IsScaled v

/-- Whether all cells of a table can be scaled can be decided. -/
instance (t : Table) : Decidable (IsScalable t) := by unfold IsScalable; infer_instance

/-- A cell of the type of its column has a field element if and only if it can be scaled. -/
lemma exists_encodeCell_iff {c : Column} {i : ℕ} {v : Scalar} (hv : v.type = c.type) :
    (∃ e, encodeCell params c i v = .ok e) ↔ IsScaled v := by
  have hvalue : (∃ n, encodeValue v = .ok n) ↔ IsScaled v := by
    cases v with
    | float x =>
      simp only [encodeValue, IsScaled]
      split
      · rename_i hfinite
        exact iff_of_true ⟨_, rfl⟩ hfinite
      · rename_i hinfinite
        refine iff_of_false ?_ hinfinite
        rintro ⟨n, hn⟩
        cases hn
    | _ => exact iff_of_true ⟨_, rfl⟩ trivial
  rw [← hvalue]
  simp only [encodeCell, encodeScalar, if_pos hv, bind_eq_ok_iff]
  constructor
  · rintro ⟨e, n, hn, -⟩
    exact ⟨n, hn⟩
  · rintro ⟨n, hn⟩
    exact ⟨_, n, hn, rfl⟩

/-- A row that fits its columns has field elements if and only if every cell can be scaled. -/
lemma exists_encodeRow_iff {r : Row} (hr : Table.Fits t.columns r) :
    (∃ es, encodeRow params (placedColumns t) r = .ok es) ↔ ∀ v ∈ r, IsScaled v := by
  have htype : ∀ {i : ℕ} {c : Column} {v : Scalar},
      t.columns[i]? = some c → r[i]? = some v → v.type = c.type := by
    intro i c v hc hv
    have hget : (r.map Scalar.type)[i]? = (t.columns.map (·.type))[i]? := congrArg (·[i]?) hr
    rw [List.getElem?_map, List.getElem?_map, hc, hv] at hget
    exact Option.some.inj hget
  rw [encodeRow, exists_mapM_ok_iff]
  constructor
  · intro h v hv
    obtain ⟨i, hi⟩ := List.mem_iff_getElem?.1 hv
    have hlength : r.length = t.columns.length := by simpa using congrArg List.length hr
    have hlt : i < t.columns.length := hlength ▸ (List.getElem?_eq_some_iff.1 hi).1
    have hc : t.columns[i]? = some t.columns[i] := List.getElem?_eq_getElem hlt
    exact (exists_encodeCell_iff (htype hc hi)).1 (h _ (mem_zip_placedColumns.2 ⟨hc, hi⟩))
  · rintro h ⟨⟨i, c⟩, v⟩ hcell
    obtain ⟨hc, hv⟩ := mem_zip_placedColumns.1 hcell
    exact (exists_encodeCell_iff (htype hc hv)).2 (h v (List.mem_of_getElem? hv))

/-- A table has roots exactly if its floats can be scaled. -/
lemma exists_tableRoots_iff (params : Params) (ht : ∀ r ∈ t.rows, Table.Fits t.columns r) :
    (∃ roots, tableRoots params t = .ok roots) ↔ IsScalable t := by
  have hrows : (∃ roots, tableRoots params t = .ok roots) ↔
      ∃ ess, t.rows.mapM (encodeRow params (placedColumns t)) = .ok ess := by
    simp only [tableRoots, map_eq_ok_iff]
    constructor
    · rintro ⟨roots, ess, hess, -⟩
      exact ⟨ess, hess⟩
    · rintro ⟨ess, hess⟩
      exact ⟨_, ess, hess, rfl⟩
  rw [hrows, exists_mapM_ok_iff]
  exact forall₂_congr fun r hr => exists_encodeRow_iff (ht r hr)

/-! ## Records -/

/-- The cells of different columns are among all cells, in their order. -/
lemma distinctCells_sublist (seen : List ℕ) (columns : List (ℕ × Column)) (q : Row) :
    (distinctCells seen columns q).Sublist (columns.zip q) := by
  induction columns generalizing seen q with
  | nil => exact List.Sublist.refl _
  | cons c cs ih =>
    cases q with
    | nil => exact List.Sublist.refl _
    | cons v vs =>
      rw [distinctCells, List.zip_cons_cons]
      split
      · exact (ih seen vs).cons _
      · exact (ih (c.1 :: seen) vs).cons_cons _

/-- A column that has been seen has no further cell. -/
lemma not_mem_of_mem_distinctCells {seen : List ℕ} {columns : List (ℕ × Column)} {q : Row}
    {cell : (ℕ × Column) × Scalar} (h : cell ∈ distinctCells seen columns q) : cell.1.1 ∉ seen := by
  induction columns generalizing seen q with
  | nil => cases h
  | cons c cs ih =>
    cases q with
    | nil => cases h
    | cons v vs =>
      rw [distinctCells] at h
      split at h
      · exact ih h
      · rename_i hnew
        rcases List.mem_cons.1 h with rfl | h
        · exact hnew
        · exact fun hmem => ih h (List.mem_cons_of_mem _ hmem)

/-- The cells of different columns are different. -/
lemma nodup_distinctCells (seen : List ℕ) (columns : List (ℕ × Column)) (q : Row) :
    (distinctCells seen columns q).Nodup := by
  induction columns generalizing seen q with
  | nil => exact List.nodup_nil
  | cons c cs ih =>
    cases q with
    | nil => exact List.nodup_nil
    | cons v vs =>
      rw [distinctCells]
      split
      · exact ih seen vs
      · exact (ih _ vs).cons fun h => not_mem_of_mem_distinctCells h List.mem_cons_self

/-- The roots of a record with cells of a row are among the roots of the row. -/
lemma exists_encodeRecord {columns : List (ℕ × Column)} {q r : Row} {es : List ℕ}
    (hq : columns.zip q ⊆ (placedColumns t).zip r)
    (hes : encodeRow params (placedColumns t) r = .ok es) :
    ∃ as, encodeRecord params columns q = .ok as ∧ as.Subperm es :=
  exists_mapM_of_subperm (List.subperm_of_subset (nodup_distinctCells [] columns q)
    (List.Subset.trans (distinctCells_sublist [] columns q).subset hq)) hes

/-- The records have cells of rows of the table, each row with the cells of one record at most. -/
def Claim.IsHonest (claim : Claim) : Prop :=
  ∃ columns rows, recordColumns claim.table claim.names = .ok columns ∧
    List.Forall₂ (fun r q => columns.zip q ⊆ (placedColumns claim.table).zip r)
      claim.table.rows rows ∧ claim.records.Subperm rows

/-- The roots of an honest claim are among the roots of its table. -/
theorem exists_recordRoots {claim : Claim} {roots : List ℕ} (h : claim.IsHonest)
    (hroots : tableRoots params claim.table = .ok roots) :
    ∃ as, recordRoots params claim.table claim.names claim.records = .ok as ∧ as.Subperm roots := by
  obtain ⟨columns, rows, hcolumns, hrows, hrecords⟩ := h
  obtain ⟨ess, hess, rfl⟩ := map_eq_ok_iff.1 hroots
  -- row by row, a record of every row has its roots within those of the row
  have hall : ∃ ass, List.Forall₂ (fun q as => encodeRecord params columns q = .ok as) rows ass ∧
      List.Forall₂ List.Subperm ass ess := by
    have hencoded := mapM_eq_ok_iff.1 hess
    clear hess hrecords hroots
    generalize claim.table.rows = ts at hrows hencoded
    induction hrows generalizing ess with
    | nil =>
      cases hencoded
      exact ⟨[], .nil, .nil⟩
    | cons hq _ ih =>
      cases hencoded with
      | cons hes hencoded =>
        obtain ⟨as, has, hsub⟩ := exists_encodeRecord hq hes
        obtain ⟨ass, hass, hsubs⟩ := ih _ hencoded
        exact ⟨as :: ass, .cons has hass, .cons hsub hsubs⟩
  obtain ⟨ass, hass, hsubs⟩ := hall
  obtain ⟨as, has, hsub⟩ := exists_mapM_of_subperm hrecords (mapM_eq_ok_iff.2 hass)
  refine ⟨as.flatten, ?_, (subperm_flatten hsub).trans (subperm_flatten_of_forall₂ hsubs)⟩
  simp only [recordRoots, hcolumns, has, bind, Except.bind]
  rfl

/-! ## Honest claims -/

/-- The cells of a projected row are cells of the row. -/
lemma subset_of_project? {positions : List ℕ} {columns : List (ℕ × Column)} {q r : Row}
    (hcolumns : List.Forall₂ (fun i p => p.1 = i ∧ t.columns[p.1]? = some p.2) positions columns)
    (hq : r.project? positions = some q) : columns.zip q ⊆ (placedColumns t).zip r := by
  induction hcolumns generalizing q with
  | nil => exact List.nil_subset _
  | @cons i p is ps hp _ ih =>
    obtain ⟨rfl, hc⟩ := hp
    simp only [Row.project?, List.mapM_cons, bind_pure_comp, Option.bind_eq_bind,
      Option.bind_eq_some_iff, Option.map_eq_map, Option.map_eq_some_iff] at hq
    obtain ⟨v, hv, vs, hvs, rfl⟩ := hq
    exact List.cons_subset.2 ⟨mem_zip_placedColumns.2 ⟨hc, hv⟩, ih hvs⟩

/-- Names of columns of the table give its columns at their positions. -/
lemma exists_recordColumns {names : List String} {positions : List ℕ}
    (h : names.mapM t.position? = some positions) (hne : names ≠ []) :
    ∃ columns, recordColumns t names = .ok columns ∧
      List.Forall₂ (fun i p => p.1 = i ∧ t.columns[p.1]? = some p.2) positions columns := by
  rw [recordColumns, if_neg (by simpa using hne)]
  clear hne
  induction names generalizing positions with
  | nil =>
    cases h
    exact ⟨[], rfl, .nil⟩
  | cons n ns ih =>
    simp only [List.mapM_cons, bind_pure_comp, Option.bind_eq_bind, Option.bind_eq_some_iff,
      Option.map_eq_map, Option.map_eq_some_iff] at h
    obtain ⟨i, hi, is, his, rfl⟩ := h
    obtain ⟨c, hc, -⟩ := Table.exists_of_position? hi
    obtain ⟨columns, hcolumns, hall⟩ := ih his
    refine ⟨(i, c) :: columns, ?_, .cons ⟨rfl, hc⟩ hall⟩
    rw [List.mapM_cons, hcolumns, hi, Option.bind_some, hc]
    rfl

/-- The claim that an answer is drawn from a table is honest. -/
lemma isHonest_of_isDrawnFrom {a : Query.Answer} (h : a.IsDrawnFrom t) :
    Claim.IsHonest ⟨t, a.columns, a.result.allRows⟩ := by
  obtain ⟨positions, rows, hpositions, hrows, hdrawn⟩ := h
  have hprojected := forall₂_of_mapM_some hrows
  by_cases hnames : a.columns = []
  · -- without columns every record is empty
    rw [hnames] at hpositions
    cases hpositions
    refine ⟨placedColumns t, rows, by rw [hnames]; rfl, hprojected.imp fun r q hq => ?_, hdrawn⟩
    cases hq
    simp
  · obtain ⟨columns, hcolumns, hall⟩ := exists_recordColumns hpositions hnames
    exact ⟨columns, rows, hcolumns, hprojected.imp fun r q hq => subset_of_project? hall hq, hdrawn⟩

/-- The claim that rows are rows of a table is honest. -/
lemma isHonest_of_subperm {rows : List Row} (h : rows.Subperm t.rows) :
    Claim.IsHonest ⟨t, [], rows⟩ :=
  ⟨placedColumns t, t.rows, rfl, List.forall₂_same.2 fun _ _ => List.Subset.refl _, h⟩

/-! ## Proofs -/

/-- The outcome is a proof that is verified. -/
def ProofOutcome.IsAccepted : ProofOutcome → Prop
  | .proven c p => c.verify p = true
  | .failed _ => False

/-- The circuit of a witness with equal sides is satisfied. -/
lemma isSatisfied_ofWitness {w : Witness} (h : w.lhs = w.rhs) :
    (Circuit.ofWitness w).isSatisfied = true := by
  simp [Circuit.ofWitness, Circuit.isSatisfied, Circuit.value, Witness.value, h]

/-- What the digest backend comes to for a claim, once it is known what witness there is. -/
lemma prove_transcript (horder : 1 ≤ params.order) (hscale : 1 ≤ params.scale) {challenge : Challenge}
    {claim : Claim} (hcolumns : claim.table.columns ≠ []) :
    prove (.transcript params) challenge claim = .ends (.ofExcept
      ((Witness.build params challenge claim.table claim.names claim.records).bind fun w =>
        (Circuit.ofWitness w).prove.map (.mk (.ofWitness w)))) := by
  rw [prove, work, if_neg (by simpa using hcolumns)]
  simp only [Backend.transcript, claim.witness_of_pos horder hscale]
  cases Witness.build params challenge claim.table claim.names claim.records with
  | error e => rfl
  | ok w =>
    simp only [Work.andThen, Work.bind, Except.bind]
    cases (Circuit.ofWitness w).prove <;> rfl

/-- An honest claim comes to an outcome. That is a proof, and is verified, exactly if the floats of the
table can be scaled and the challenge is no root of the records. -/
theorem exists_prove_isAccepted_iff (horder : 1 ≤ params.order) (hscale : 1 ≤ params.scale)
    {challenge : Challenge} {claim : Claim} (hcolumns : claim.table.columns ≠ [])
    (hrows : ∀ r ∈ claim.table.rows, Table.Fits claim.table.columns r) (h : claim.IsHonest) :
    ∃ outcome, prove (.transcript params) challenge claim = .ends outcome ∧
      (outcome.IsAccepted ↔ IsScalable claim.table ∧
        ∀ bs as, tableRoots params claim.table = .ok bs →
          recordRoots params claim.table claim.names claim.records = .ok as →
          challenge.point params bs as ∉ as) := by
  refine ⟨_, prove_transcript horder hscale hcolumns, ?_⟩
  -- without roots of the table both sides are false, so its roots can be taken as given
  rw [← exists_tableRoots_iff params hrows]
  cases hroots : tableRoots params claim.table with
  | error e =>
    have hbuild : Witness.build params challenge claim.table claim.names claim.records =
        .error e := by
      simp only [Witness.build, hroots]
      rfl
    rw [hbuild]
    refine iff_of_false id ?_
    rintro ⟨⟨bs, hbs⟩, -⟩
    cases hbs
  | ok bs =>
    obtain ⟨as, has, hsub⟩ := exists_recordRoots h hroots
    have hbuild : Witness.build params challenge claim.table claim.names claim.records =
        Witness.ofRoots params bs as (challenge.point params bs as) := by
      simp only [Witness.build, hroots, has]
      rfl
    rw [hbuild]
    -- a challenge among the record roots makes the divisor vanish
    by_cases hpoint : challenge.point params bs as ∈ as
    · rw [ofRoots_of_mem hpoint]
      refine iff_of_false id ?_
      rintro ⟨-, hnone⟩
      exact hnone bs as rfl has hpoint
    · obtain ⟨w, hw, hzero⟩ := ofRoots_of_subperm params hsub hpoint
      have hsatisfied := isSatisfied_ofWitness hzero
      have hprove : (Circuit.ofWitness w).prove =
          .ok ⟨Digest.sha256 (Circuit.ofWitness w).transcript⟩ := if_pos hsatisfied
      refine iff_of_true ?_ ⟨⟨bs, rfl⟩, fun bs' as' hbs has' => ?_⟩
      · simp [hw, Except.bind, hprove, Except.map, ProofOutcome.ofExcept, ProofOutcome.IsAccepted,
          Circuit.verify, hsatisfied]
      · cases hbs
        cases has.symm.trans has'
        exact hpoint

end ProvenTables.Membership
