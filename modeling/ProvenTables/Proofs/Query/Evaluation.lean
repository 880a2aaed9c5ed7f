import ProvenTables.Proofs.Query.Rows

/-!
# Evaluation of plans

Unless an index answers it, a plan is evaluated by arranging the rows it keeps or each of their groups, then
projecting and then cutting (`run_of_ungrouped`, `run_of_grouped`). A plan that puts out columns of a sound
table always has an answer: no row is too short for it (`exists_answer`). A plan that does nothing but filter
answers with all rows that it keeps, in the order of the table (`run_of_filter`).
-/

namespace ProvenTables.Query

open Sql

namespace Plan

variable {t : Table} {p : Plan}

/-! ## Cut and projected rows -/

/-- Without a limit nothing is cut off. -/
lemma cut_eq {α : Type} (p : Plan) (xs : List α) : p.cut xs = p.limit.elim xs (xs.take ·) := by
  rw [cut]
  cases p.limit <;> rfl

/-- Rows are projected one by one. -/
lemma project_eq_ok_iff_forall₂ {rows rs : List Row} :
    p.project rows = .ok rs ↔ List.Forall₂ (fun r q => r.project? p.output = some q) rows rs := by
  rw [project_eq_ok_iff, mapM_eq_some_iff]

/-- The first of the projected rows are the first rows, projected. -/
lemma project_cut {rows rs : List Row} (h : p.project rows = .ok rs) :
    p.project (p.cut rows) = .ok (p.cut rs) := by
  rw [cut_eq, cut_eq]
  cases p.limit with
  | none => exact h
  | some n => exact project_eq_ok_iff_forall₂.2 (List.forall₂_take n (project_eq_ok_iff_forall₂.1 h))

/-- Groups can be cut off before or after they are projected. -/
lemma mapM_project_cut {groups gs : List (List Row)} (h : groups.mapM p.project = .ok gs) :
    (p.cut groups).mapM p.project = .ok (p.cut gs) := by
  rw [cut_eq, cut_eq]
  cases p.limit with
  | none => exact h
  | some n => exact mapM_eq_ok_iff.2 (List.forall₂_take n (mapM_eq_ok_iff.1 h))

/-- Without an index the answer has the columns of the output. -/
lemma columns_of_run {a : Answer} (hindex : p.index? t = none) (h : p.run t = .ok a) :
    a.columns = p.outputNames t := by
  simp only [run, hindex] at h
  cases hgroup : p.groupBy with
  | none =>
    rw [hgroup] at h
    obtain ⟨result, -, ha⟩ := bind_eq_ok_iff.1 h
    cases ha
    rfl
  | some i =>
    rw [hgroup] at h
    obtain ⟨result, -, ha⟩ := bind_eq_ok_iff.1 h
    cases ha
    rfl

/-- The rows of an index are projected. -/
lemma run_of_indexed {name : String} {ix : Index} {rs : List Row} (hindex : p.index? t = some (name, ix))
    (h : p.project ix.rows = .ok rs) : p.run t = .ok ⟨[name], .rows rs⟩ := by
  simp only [run, hindex, h]
  rfl

/-- Without groups, the rows are arranged, projected and cut. -/
lemma run_of_ungrouped {rs : List Row} (hindex : p.index? t = none) (hgroup : p.groupBy = none)
    (h : p.project (p.arrange (t.rows.filter p.keeps)) = .ok rs) :
    p.run t = .ok ⟨p.outputNames t, .rows (p.cut rs)⟩ := by
  simp only [run, hindex, hgroup, project_cut h]
  rfl

/-- With groups, the rows of each are arranged and projected, and the groups are cut. -/
lemma run_of_grouped {i : ℕ} {gs : List (List Row)} (hindex : p.index? t = none) (hgroup : p.groupBy = some i)
    (h : ((groupRows i (t.rows.filter p.keeps)).map p.arrange).mapM p.project = .ok gs) :
    p.run t = .ok ⟨p.outputNames t, .groups (p.cut gs)⟩ := by
  simp only [run, hindex, hgroup, mapM_project_cut h]
  rfl

/-! ## Answers -/

/-- Rows that fit the columns of the table can be projected to any of them. -/
lemma exists_project {rows : List Row} (hrows : ∀ r ∈ rows, Table.Fits t.columns r)
    (h : ∀ i ∈ p.output, i < t.columns.length) :
    ∃ rs, p.project rows = .ok rs ∧ ∀ q ∈ rs, ∃ r ∈ rows, r.project? p.output = some q := by
  obtain ⟨rs, hrs⟩ : ∃ rs, (rows.mapM fun r => r.project? p.output) = some rs :=
    exists_mapM_some fun r hr => Table.exists_project? (hrows r hr) h
  exact ⟨rs, project_eq_ok_iff.2 hrs, exists_of_mapM_some hrs⟩

/-- A plan that puts out columns of a sound table has an answer, of rows that are projected from rows of the
table and its indexes. -/
theorem exists_answer (ht : t.IsSound) (h : ∀ i ∈ p.output, i < t.columns.length) :
    ∃ a, p.run t = .ok a ∧ a.columns = p.outputNames t ∧
      ∀ q ∈ a.result.allRows, ∃ r ∈ t.allRows, r.project? p.output = some q := by
  have hfits : ∀ rows ⊆ t.allRows, ∀ r ∈ rows, Table.Fits t.columns r :=
    fun rows hsub r hr => (ht.rows r (hsub hr)).fits
  have hkept : t.rows.filter p.keeps ⊆ t.allRows :=
    fun r hr => List.mem_append_left _ (List.mem_of_mem_filter hr)
  -- the plan reads an index, the rows that are kept, or the groups of these
  cases hindex : p.index? t with
  | some i =>
    obtain ⟨name, ix⟩ := i
    obtain ⟨i, c, houtput, hc, hix, rfl⟩ := index?_eq_some_iff.1 hindex
    have hsub : ix.rows ⊆ t.allRows := fun r hr => mem_allRows_of_index hix hr
    obtain ⟨rs, hrs, hfrom⟩ := exists_project (hfits _ hsub) h
    refine ⟨_, run_of_indexed hindex hrs, by simp [outputNames, houtput, hc], fun q hq => ?_⟩
    obtain ⟨r, hr, hproject⟩ := hfrom q hq
    exact ⟨r, hsub hr, hproject⟩
  | none =>
    cases hgroup : p.groupBy with
    | none =>
      have hsub : p.arrange (t.rows.filter p.keeps) ⊆ t.allRows := fun r hr =>
        hkept ((p.arrange_perm _).subset hr)
      obtain ⟨rs, hrs, hfrom⟩ := exists_project (hfits _ hsub) h
      refine ⟨_, run_of_ungrouped hindex hgroup hrs, rfl, fun q hq => ?_⟩
      obtain ⟨r, hr, hproject⟩ := hfrom q ((p.cut_sublist _).subset hq)
      exact ⟨r, hsub hr, hproject⟩
    | some i =>
      have hsub : ∀ g ∈ (groupRows i (t.rows.filter p.keeps)).map p.arrange, g ⊆ t.allRows := by
        intro g hg r hr
        obtain ⟨g', hg', rfl⟩ := List.mem_map.1 hg
        exact hkept ((flatten_groupRows_perm i _).subset
          (List.mem_flatten_of_mem hg' ((p.arrange_perm g').subset hr)))
      obtain ⟨gs, hgs⟩ := exists_mapM_ok_iff.2 fun g hg =>
        (exists_project (hfits _ (hsub g hg)) h).imp fun rs hrs => hrs.1
      refine ⟨_, run_of_grouped hindex hgroup hgs, rfl, fun q hq => ?_⟩
      obtain ⟨rs, hrs, hq⟩ := List.mem_flatten.1 hq
      obtain ⟨g, hg, hproject⟩ := (exists_of_mapM_ok hgs).2 rs ((p.cut_sublist _).subset hrs)
      obtain ⟨r, hr, hrq⟩ := exists_of_mapM_some (project_eq_ok_iff.1 hproject) q hq
      exact ⟨r, hsub g hg hr, hrq⟩

/-- A plan that does nothing but filter. -/
def ofFilter (output : List ℕ) (c : Condition) : Plan := ⟨output, none, some c, none, none, none⟩

/-- A plan of two columns or more that does nothing but filter answers with all rows that it keeps, in the
order of the table. -/
lemma run_of_filter (ht : t.IsSound) {output : List ℕ} (h : ∀ i ∈ output, i < t.columns.length)
    (hlength : 2 ≤ output.length) (c : Condition) :
    ∃ rs, ((t.rows.filter c.holds).mapM fun r => r.project? output) = some rs ∧
      (ofFilter output c).run t = .ok ⟨(ofFilter output c).outputNames t, .rows rs⟩ := by
  have hrows : ∀ r ∈ t.rows.filter c.holds, Table.Fits t.columns r :=
    fun r hr => (ht.row (List.mem_of_mem_filter hr)).fits
  obtain ⟨rs, hrs, -⟩ := exists_project (p := ofFilter output c) hrows h
  have hindex : (ofFilter output c).index? t = none := by
    obtain ⟨i, j, is, rfl⟩ : ∃ i j is, output = i :: j :: is := by
      match output, hlength with
      | i :: j :: is, _ => exact ⟨i, j, is, rfl⟩
    rfl
  exact ⟨rs, project_eq_ok_iff.1 hrs, run_of_ungrouped hindex rfl hrs⟩

end Plan

end ProvenTables.Query
