import ProvenTables.Proofs.Database.Readability
import ProvenTables.Proofs.Query.Rows

/-!
# Snapshots

An index that a statement creates is a snapshot of rows of its table, and tables never lose rows. Only
the payload of a whole table can bring an index of other rows: a table loads as a faithful one after
operations whose payloads have faithful tables (`isFaithful_of_load`), and a payload that has none gives a
table with rows in its answers that it does not have.
-/

namespace ProvenTables.Database

open Storage

/-! ## Faithful operations -/

/-- The table of a payload is faithful. -/
def Operation.IsFaithful : Operation → Prop
  | createEntity name payload _ => ∀ t, payload.toTable name = .ok t → t.IsFaithful
  | _ => True

/-- A change makes faithful tables of faithful tables. -/
def Change.IsFaithful : Change → Prop
  | create _ table => ∀ t, table = .ok t → t.IsFaithful
  | alter _ addition => ∀ t a, t.IsFaithful → addition t = .ok a → (a.apply t).IsFaithful

/-- Every table that loads is faithful. -/
def IsFaithful (db : SortedMap (Except StorageError Table)) : Prop :=
  ∀ name t, db.get? name = some (.ok t) → t.IsFaithful

/-- The change that a faithful operation makes is faithful. -/
lemma isFaithful_effect {op : Operation} {c : Change} {seen : Observation} (hop : op.IsFaithful)
    (h : op.effect = .change c seen) : c.IsFaithful := by
  cases op with
  | execute prover sql =>
    simp only [Operation.effect] at h
    split at h
    · rename_i s _
      cases s with
      | createTable s =>
        cases h
        intro t ht
        simp only [newTable, mapError_eq_ok_iff, Table.create] at ht
        split at ht
        · cases ht
        · cases ht
          -- a table starts without indexes
          exact Table.isFaithful_of_isEmpty rfl
      | createIndex s =>
        cases h
        intro t a ht ha
        obtain ⟨ix, hix, rfl⟩ := map_eq_ok_iff.1 ha
        simp only [newIndex] at hix
        split at hix
        · cases hix
          -- the buckets of an index hold some of the table's rows, each at most once
          exact ht.addIndex (Index.rows_build_subperm _ _) s.index
        · cases hix
      | insert s =>
        cases h
        intro t a ht ha
        obtain ⟨rows, -, rfl⟩ := map_eq_ok_iff.1 ha
        -- rows that are added take none away from under an index
        exact ht.addRows rows
      | select s => cases h
    · cases h
  | createEntity name payload valid =>
    cases h
    exact fun t ht => hop t (mapError_eq_ok_iff.1 ht)
  | appendData name payload valid =>
    cases h
    intro t a ht ha
    obtain ⟨rows, -, rfl⟩ := map_eq_ok_iff.1 ha
    exact ht.addRows rows
  | pointer name => cases h
  | tables => cases h

/-- A faithful change keeps the indexes faithful. -/
lemma isFaithful_change {db db' : SortedMap (Except StorageError Table)} {c : Change}
    (hread : IsReadBack db) (hdb : IsFaithful db) (hsound : c.IsSound) (hc : c.IsFaithful)
    (h : Keeping.stored.change db c = .ok db') : IsFaithful db' := by
  obtain ⟨u, hu, -, hfind⟩ := find_of_change hread hsound h
  obtain ⟨o, ho⟩ := Keeping.insert_of_change h
  intro name t ht
  by_cases hname : c.table = name
  · subst hname
    -- the table that is changed loads, if it does, as what the change makes of it
    obtain ⟨-, rfl⟩ := (hfind t).1 (find_eq_ok_iff.2 ht)
    cases c with
    | create name table => exact hc t hu
    | alter name addition =>
      simp only [Change.result, bind_eq_ok_iff] at hu
      obtain ⟨t₀, hfind₀, a, ha, ht₀⟩ := hu
      cases ht₀
      exact hc t₀ a (hdb _ _ (find_eq_ok_iff.1 hfind₀)) ha
  · rw [ho, SortedMap.get?_insert, if_neg hname] at ht
    exact hdb name t ht

/-- Tables that load after operations are sound, and faithful if the operations are. -/
lemma isFaithful_state {ops : List Operation} (hops : ∀ op ∈ ops, op.IsFaithful) :
    IsFaithful (Keeping.stored.state ops) := by
  have hboth : IsReadBack (Keeping.stored.state ops) ∧ IsFaithful (Keeping.stored.state ops) := by
    refine Keeping.state_induction_of (k := Keeping.stored)
      (P := fun db => IsReadBack db ∧ IsFaithful db) (Q := fun c => c.IsSound ∧ c.IsFaithful)
      (fun op hop c seen he => ⟨isSound_effect he, isFaithful_effect (hops op hop) he⟩) ?_ ?_
    · exact ⟨fun name t ht => (by cases ht), fun name t ht => (by cases ht)⟩
    · intro db db' c hdb hc h
      exact ⟨isReadBack_change hdb.1 hc.1 h, isFaithful_change hdb.1 hdb.2 hc.1 hc.2 h⟩
  exact hboth.2

section Load

variable {ops : List Operation} {name : String} {t : Table}

/-- A table that is loaded is the stored one. -/
lemma get?_of_load (hno : NoCollision (written ops)) (h : load (memoryAfter ops) name = .ok t) :
    (Keeping.stored.state ops).get? name = some (.ok t) := by
  rw [(refines_stored hno).2 ops (List.prefix_refl _)] at h
  exact find_eq_ok_iff.1 h

/-- A table that is loaded is sound. -/
lemma isSound_of_load (hno : NoCollision (written ops)) (h : load (memoryAfter ops) name = .ok t) :
    t.IsSound :=
  (isReadBack_state ops name t (get?_of_load hno h)).1

/-- After faithful operations every table loads as a faithful one. -/
theorem isFaithful_of_load (hno : NoCollision (written ops)) (hops : ∀ op ∈ ops, op.IsFaithful)
    (h : load (memoryAfter ops) name = .ok t) : t.IsFaithful :=
  isFaithful_state hops name t (get?_of_load hno h)

end Load

/-- A dated table that has been created from a payload loads as it is in the payload. -/
lemma load_createEntity {name : String} {payload : Payload} {valid : payload.IsValid} {t : Table}
    (h : payload.toTable name = .ok t) (hdated : t.IsDated)
    (hno : NoCollision (createdContents name t)) :
    load (memoryAfter [.createEntity name payload valid]) name = .ok t := by
  have hwritten := written_createEntity valid h
  rw [(refines_stored (hwritten ▸ hno)).2 _ (List.prefix_refl _), find_eq_ok_iff]
  obtain ⟨rfl, hsound⟩ := Payload.isSound_of_toTable valid h
  have hchange : Keeping.stored.change .empty (.create t.name (.ok t)) =
      .ok (.insert .empty t.name (Keeping.stored.create t.name t)) := rfl
  rw [Keeping.state, List.foldl_cons, List.foldl_nil, Keeping.step_eq, Operation.effect, h]
  simp only [Effect.change?, Except.mapError]
  rw [Keeping.apply_of_change hchange, SortedMap.get?_insert, if_pos rfl, Option.some.injEq,
    Keeping.stored_create hsound hdated]

/-! ## Answers -/

/-- The procedure of a text is that of the statement which it is parsed as. -/
lemma procedure_execute {prover : Option Prover} {sql : String} {s : Sql.Statement}
    (h : Sql.parse sql = .ok s) : (Operation.execute prover sql).procedure =
      do return Response.reply (← executeStatement prover s) := by
  simp only [Operation.procedure, execute, h]
  rfl

/-- A query that succeeds has loaded its table and has its answer. -/
lemma load_of_run_querying {α : Type} {m : Memory} {name : String}
    {answer : Table → Except DatabaseError α} {x : Table × α}
    (h : ((querying name answer).run Memory.answer m).1 = .ok x) :
    load m name = .ok x.1 ∧ answer x.1 = .ok x.2 := by
  obtain ⟨⟨p, t⟩, hload, hanswer⟩ := Procedure.exists_of_run_bind h
  obtain ⟨a, ha, hx⟩ := Procedure.exists_of_run_bind hanswer
  cases hx
  exact ⟨by rw [load, hload]; rfl, ha⟩

/-- The reply to a query comes from the table that is loaded. -/
lemma exists_load_of_select {prover : Option Prover} {sql : String} {s : Sql.Select} {m : Memory}
    {r : Reply} (hsql : Sql.parse sql = .ok (.select s))
    (h : ((Operation.execute prover sql).run m).1 = .ok (.reply r)) :
    ∃ t, load m s.table = .ok t ∧ Query.select t s = .ok r.answer ∧
      r.proof = prover.map fun prove => prove ⟨t, r.answer.columns, r.answer.result.allRows⟩ := by
  rw [Operation.run, procedure_execute hsql] at h
  change (Procedure.run Memory.answer (do return Response.reply (← select prover s)) m).1 = _ at h
  rw [select_eq] at h
  obtain ⟨⟨t, a⟩, hquery, hreply⟩ := Procedure.exists_of_run_bind h
  obtain ⟨hload, ha⟩ := load_of_run_querying hquery
  cases hreply
  exact ⟨t, hload, mapError_eq_ok_iff.1 ha, rfl⟩

/-- A query on a table that can be loaded has a reply with its answer, if it has one. -/
lemma exists_reply_of_select (prover : Option Prover) {sql : String} {s : Sql.Select} {m : Memory}
    {t : Table} {a : Query.Answer} (hsql : Sql.parse sql = .ok (.select s))
    (hload : load m s.table = .ok t) (ha : Query.select t s = .ok a) :
    ∃ r, ((Operation.execute prover sql).run m).1 = .ok (.reply r) ∧ r.answer = a := by
  obtain ⟨⟨p, u⟩, hrun, rfl⟩ := map_eq_ok_iff.1 hload
  have hloaded : (loadTable s.table).run Memory.answer m =
      (.ok (p, u), ((loadTable s.table).run Memory.answer m).2) := Prod.ext hrun rfl
  rw [Operation.run, procedure_execute hsql]
  change ∃ r, (Procedure.run Memory.answer (do return Response.reply (← select prover s)) m).1 = _ ∧ _
  rw [select_eq, querying, bind_assoc, Procedure.run_bind_ok hloaded]
  simp only [ha]
  exact ⟨_, rfl, rfl⟩

/-- The answer to a query that succeeds is evaluated on the table that is loaded. All answers from that
table are drawn from its rows exactly if it is faithful, which it is after faithful operations. -/
theorem isDrawnFrom_of_execute {ops : List Operation} {prover : Option Prover} {sql : String}
    {s : Sql.Select} {r : Reply} (hno : NoCollision (written ops))
    (hsql : Sql.parse sql = .ok (.select s))
    (h : ((Operation.execute prover sql).run (memoryAfter ops)).1 = .ok (.reply r)) :
    ∃ t, load (memoryAfter ops) s.table = .ok t ∧ Query.select t s = .ok r.answer ∧
      (t.IsFaithful ↔ ∀ s a, Query.select t s = .ok a → a.IsDrawnFrom t) ∧
      ((∀ op ∈ ops, op.IsFaithful) → r.answer.IsDrawnFrom t) := by
  obtain ⟨t, hload, ha, -⟩ := exists_load_of_select hsql h
  have hsound := isSound_of_load hno hload
  exact ⟨t, hload, ha, Query.isFaithful_iff hsound, fun hops =>
    Query.isDrawnFrom_of_select hsound (isFaithful_of_load hno hops hload) ha⟩

/-! ## An index without rows -/

/-- A table without rows that has an index of one row. -/
def ghosts : Table :=
  ⟨"ghosts", [⟨"id", .int⟩], [], .insert .empty "id" ⟨.insert .empty "1" [[.int 1]]⟩⟩

/-- A payload with an index over a row that it does not have. -/
def ghostsPayload : Payload where
  columns := ["id"]
  types := .insert .empty "id" .int
  rows := []
  indexes := .insert .empty "id" (.insert .empty "1" [[.num (.int 1)]])

/-- The payload is valid. -/
lemma isValid_ghosts : ghostsPayload.IsValid := by
  constructor <;> simp [ghostsPayload, Json.WellFormed, JsonNumber.WellFormed, SortedMap.empty,
    SortedMap.insert, SortedMap.insertEntry, Json.isWord]

/-- The payload gives a table with that index. -/
lemma toTable_ghosts : ghostsPayload.toTable "ghosts" = .ok ghosts := by rfl

/-- The table is created from its payload. -/
def createGhosts : Operation := .createEntity "ghosts" ghostsPayload isValid_ghosts

/-- What the creation writes has these addresses. -/
lemma addresses_ghosts : (createdContents "ghosts" ghosts).map Address.ofText =
    [⟨"4388f901eb7a3bc171b086fe11ef86d14a1a3bab908f0ffb5a55d58541b423fa"⟩,
      ⟨"011018a39a167c2597fd495793b01c72c6ba25e0351e230379fd03a5d0f1e94f"⟩] := by
  refine addresses_createdContents
    "1995ddf2e27891a007c0e7ff1c3106a27c3a4f14805bea2aef121cf293b721bf" ?_ ?_ ?_ <;>
    rw [Address.ofJson_eq]
  · decide +kernel
  · decide +kernel
  · decide +kernel

/-- What the creation writes does not collide. -/
lemma noCollision_ghosts : NoCollision (createdContents "ghosts" ghosts) := by
  refine noCollision_of_nodup ?_
  rw [addresses_ghosts]
  decide

/-- What the operation writes does not collide. -/
lemma noCollision_createGhosts : NoCollision (written [createGhosts]) := by
  rw [createGhosts, written_createEntity _ toTable_ghosts]
  exact noCollision_ghosts

/-- The table is loaded with its index. -/
lemma load_createGhosts : load (memoryAfter [createGhosts]) "ghosts" = .ok ghosts :=
  load_createEntity toTable_ghosts (by decide) noCollision_ghosts

/-- A query for the column that the index has the name of. -/
def selectGhosts : Sql.Select := ⟨"ghosts", .columns ["id"], none, none, none, none, none⟩

/-- The query is parsed. -/
lemma parse_selectGhosts : Sql.parse "SELECT id FROM ghosts" = .ok (.select selectGhosts) := by
  decide

/-- The query is answered with the row that the table does not have. -/
lemma select_ghosts : Query.select ghosts selectGhosts = .ok ⟨["id"], .rows [[.int 1]]⟩ := by
  decide

/-- A table without rows answers with the row of the index that it has been created with. -/
theorem isDrawnFrom_of_execute_ghosts :
    NoCollision (written [createGhosts]) ∧ ∃ r,
      ((Operation.execute none "SELECT id FROM ghosts").run (memoryAfter [createGhosts])).1 =
        .ok (.reply r) ∧
      r.answer = ⟨["id"], .rows [[.int 1]]⟩ ∧
      load (memoryAfter [createGhosts]) "ghosts" = .ok ghosts ∧ ¬r.answer.IsDrawnFrom ghosts := by
  obtain ⟨r, hr, hanswer⟩ := exists_reply_of_select none parse_selectGhosts load_createGhosts
    select_ghosts
  obtain ⟨t, hload, -, -, -⟩ :=
    isDrawnFrom_of_execute noCollision_createGhosts parse_selectGhosts hr
  cases load_createGhosts.symm.trans hload
  refine ⟨noCollision_createGhosts, r, hr, hanswer, hload, ?_⟩
  rw [hanswer]
  rintro ⟨positions, rows, -, hrows, hdrawn⟩
  cases hrows
  exact absurd hdrawn.length_le (by decide)

end ProvenTables.Database
