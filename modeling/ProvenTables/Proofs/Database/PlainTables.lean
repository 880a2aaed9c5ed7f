import ProvenTables.Proofs.Database.Indexing

/-!
# Plain tables

The reference database that keeps its tables as they are, and not what is read back of them. A database in
memory shows what it shows as long as no timestamp has a year that is read back as another one
(`refines_plain`).
-/

namespace ProvenTables

namespace Database

open Sql Storage

/-- The tables of the reference database are sound. -/
lemma isSound_state (ops : List Operation) : IsSound (Keeping.plain.state ops) :=
  Keeping.state_induction (fun name t ht => by cases ht)
    (fun _ _ _ hdb hc h => Keeping.isSound_change hdb hc h) ops

/-- Tables that are stored without signed years are the plain tables. -/
lemma state_stored {ops : List Operation}
    (hd : ∀ before, before <+: ops → IsDated (Keeping.plain.state before)) :
    Keeping.stored.state ops = (Keeping.plain.state ops).map .ok := by
  induction ops using List.reverseRecOn with
  | nil => rfl
  | append_singleton ops op ih =>
    have hops := ih fun before h => hd before (h.trans (List.prefix_append _ _))
    have hlast := hd _ (List.prefix_refl _)
    rw [state_append, Keeping.step_eq] at hlast
    rw [state_append, state_append, Keeping.step_eq, Keeping.step_eq, hops]
    cases he : op.effect with
    | change c seen =>
      rw [he] at hlast
      exact Keeping.apply_stored (isSound_state ops) (isSound_effect he) hlast
    | _ => rfl

/-- A database in memory shows of every operation what the reference database shows of it, and every
table is loaded as the reference database has it, if no two contents that are written have the same
address and the reference database has no timestamp with a signed year. -/
theorem refines_plain {ops : List Operation} (hno : NoCollision (written ops))
    (hd : ∀ before, before <+: ops → IsDated (Keeping.plain.state before)) :
    (∀ before op, before ++ [op] <+: ops → observe (op.run (memoryAfter before)).1 =
        Keeping.plain.observe (Keeping.plain.state before) op.effect) ∧
      ∀ before, before <+: ops → ∀ name,
        load (memoryAfter before) name = Keeping.plain.find (Keeping.plain.state before) name := by
  obtain ⟨hobserve, hload⟩ := refines_stored hno
  have hstate : ∀ before, before <+: ops →
      Keeping.stored.state before = (Keeping.plain.state before).map .ok :=
    fun before h => state_stored fun earlier he => hd earlier (he.trans h)
  refine ⟨fun before op h => ?_, fun before h name => ?_⟩
  · rw [hobserve before op h, hstate before ((List.prefix_append _ _).trans h),
      Keeping.observe_stored]
  · rw [hload before h, hstate before h, Keeping.find_stored]

/-! ## A run with rows, an index and a query -/

/-- A query that is answered from the index. -/
def queryBodies : Operation :=
  .execute none "SELECT body FROM docs WHERE rank = 1 ORDER BY body LIMIT 1"

/-- A table is created, gets rows, an index and another row, and is queried. -/
def docsRun : List Operation := [createDocs, insertRanks, indexRanks, insertLate, queryBodies]

/-- The query has no change. -/
lemma effect_queryBodies : queryBodies.effect =
    .query "docs" fun t => (Query.select t selectBodies).mapError .query :=
  effect_execute none parse_selectBodies

/-- A query writes nothing. -/
lemma written_query {ops : List Operation} {op : Operation} {name : String}
    {answer : Table → Except DatabaseError Query.Answer} (he : op.effect = .query name answer)
    (hno : NoCollision (written ops)) : written (ops ++ [op]) = written ops := by
  obtain ⟨o, ho⟩ := (he ▸ implements_effect op).exists_yields_query (lineage name (mutations name ops))
  rw [written_append, (ho _ (follows_lineage hno name)).kept, List.append_nil]

/-- What the run writes does not collide. -/
lemma noCollision_docsRun : NoCollision (written docsRun) := by
  have hwritten : written docsRun = _ := written_query effect_queryBodies noCollision_insertLate
  rw [hwritten]
  exact noCollision_insertLate

/-- The reference database after the creation. -/
lemma state_docs : Keeping.plain.state [createDocs] = .insert .empty "docs" docs := by
  rw [Keeping.state, List.foldl_cons, List.foldl_nil, effect_createDocs]
  rfl

/-- The reference database after the insertion of the rows. -/
lemma state_ranks : Keeping.plain.state [createDocs, insertRanks] = .insert .empty "docs" ranked := by
  refine (state_append _ [createDocs] insertRanks).trans ?_
  rw [state_docs, insertRanks, effect_execute none parse_insertRanks]
  rfl

/-- The reference database after the index has been created. -/
lemma state_index :
    Keeping.plain.state [createDocs, insertRanks, indexRanks] = .insert .empty "docs" indexed := by
  refine (state_append _ [createDocs, insertRanks] indexRanks).trans ?_
  rw [state_ranks, indexRanks, effect_execute none parse_indexRanks]
  rfl

/-- The reference database after the insertion of the late row. -/
lemma state_late : Keeping.plain.state [createDocs, insertRanks, indexRanks, insertLate] =
    .insert .empty "docs" grown := by
  refine (state_append _ [createDocs, insertRanks, indexRanks] insertLate).trans ?_
  rw [state_index, insertLate, effect_execute none parse_insertLate]
  rfl

/-- A query leaves the reference database as it is. -/
lemma state_docsRun : Keeping.plain.state docsRun = .insert .empty "docs" grown := by
  refine (state_append _ [createDocs, insertRanks, indexRanks, insertLate] queryBodies).trans ?_
  rw [state_late, Keeping.step_eq, effect_queryBodies]
  rfl

/-- A database of one table has no signed years if the table has none. -/
lemma isDated_insert {t : Table} (name : String) (h : t.IsDated) : IsDated (.insert .empty name t) := by
  intro n u hu
  rw [SortedMap.get?_insert] at hu
  split at hu
  · cases hu
    exact h
  · cases hu

/-- At no time does the reference database have a signed year. -/
lemma isDated_docsRun {before : List Operation} (h : before <+: docsRun) :
    IsDated (Keeping.plain.state before) := by
  have hcases : before = [] ∨ before = [createDocs] ∨ before = [createDocs, insertRanks] ∨
      before = [createDocs, insertRanks, indexRanks] ∨
      before = [createDocs, insertRanks, indexRanks, insertLate] ∨ before = docsRun := by
    simpa [docsRun, List.inits] using (List.mem_inits _ _).2 h
  rcases hcases with rfl | rfl | rfl | rfl | rfl | rfl
  · exact fun name t ht => by cases ht
  · exact state_docs ▸ isDated_insert "docs" (by decide)
  · exact state_ranks ▸ isDated_insert "docs" (by decide)
  · exact state_index ▸ isDated_insert "docs" (by decide)
  · exact state_late ▸ isDated_insert "docs" (by decide)
  · exact state_docsRun ▸ isDated_insert "docs" (by decide)

/-- The query is answered from the index as it is in the reference database, and the table is loaded with its
rows and its index. -/
theorem refines_plain_docs : NoCollision (written docsRun) ∧
    (∀ before, before <+: docsRun → IsDated (Keeping.plain.state before)) ∧
    observe (queryBodies.run (memoryAfter [createDocs, insertRanks, indexRanks, insertLate])).1 =
      .ok (.answer ⟨["body"], .rows [[.string "a"], [.string "b"], [.string "c"]]⟩) ∧
    load (memoryAfter docsRun) "docs" = .ok grown := by
  obtain ⟨hobserve, hload⟩ := refines_plain noCollision_docsRun fun _ => isDated_docsRun
  refine ⟨noCollision_docsRun, fun _ => isDated_docsRun,
    (hobserve [createDocs, insertRanks, indexRanks, insertLate] queryBodies (List.prefix_refl _)).trans ?_,
    (hload _ (List.prefix_refl _) "docs").trans ?_⟩
  · rw [state_late, effect_queryBodies]
    rfl
  · rw [state_docsRun]
    rfl

end Database

end ProvenTables
