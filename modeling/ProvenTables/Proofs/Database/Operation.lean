import ProvenTables.Database.Entity
import ProvenTables.Proofs.Storage.Decode

/-!
# Operations

What a client can ask of a database, and what each operation does: it reads one table, or it changes
one table by creating it or by an addition to it. `implements_effect` says that the procedure of every
operation is one of a few procedures around such a change or query.
-/

namespace ProvenTables

namespace Database

open Sql Storage

/-- What a client asks for. -/
inductive Operation where
  | execute (prover : Option Prover) (sql : String)
  | createEntity (name : String) (payload : Payload) (valid : payload.IsValid)
  | appendData (name : String) (payload : Payload) (valid : payload.IsValid)
  | pointer (name : String)
  | tables

/-- What an operation returns. -/
inductive Response where
  | reply (r : Reply)
  | pointer (p : Pointer)
  | pointers (ps : List Pointer)

/-- What of a response does not depend on addresses, identifiers and proofs. -/
inductive Observation where
  | answer (a : Query.Answer)
  | table (name : String)
  | tables (names : List String)
  deriving DecidableEq

/-- What a client sees of what an operation returns. -/
def Response.observation : Response → Observation
  | reply r => .answer r.answer
  | pointer p => .table p.table
  | pointers ps => .tables (ps.map (·.table))

/-- The procedure that an operation runs. -/
def Operation.procedure : Operation → Procedure DatabaseError Response
  | execute prover sql => do return .reply (← Database.execute prover sql)
  | createEntity name payload _ => do return .pointer (← Database.createEntity name payload)
  | appendData name payload _ => do return .pointer (← Database.appendData name payload)
  | pointer name => do return .pointer (← Database.pointer name)
  | tables => do return .pointers (← Database.tables)

/-! ## Effects -/

/-- What is added to a table. -/
inductive Addition where
  | rows (rs : List Row)
  | index (name : String) (ix : Index)

namespace Addition

/-- What is stored of an addition. -/
def payload (t : Table) : Addition → Payload
  | rows rs => .ofRows t rs
  | index name ix => .ofIndex t name ix

/-- The rows that stand in an addition. -/
def allRows : Addition → List Row
  | rows rs => rs
  | index _ ix => ix.rows

/-- The table with an addition. -/
def apply (t : Table) : Addition → Table
  | rows rs => { t with rows := t.rows ++ rs }
  | index name ix => { t with indexes := t.indexes.insert name ix }

end Addition

/-- A change of one table. -/
inductive Change where
  | create (name : String) (table : Except DatabaseError Table)
  | alter (name : String) (addition : Table → Except DatabaseError Addition)

/-- The table that is changed. -/
def Change.table : Change → String
  | create name _ => name
  | alter name _ => name

/-- What an operation does if nothing else happens at the same time. -/
inductive Effect where
  | fail (e : DatabaseError)
  /-- A change, and what is seen of it if it succeeds. -/
  | change (c : Change) (seen : Observation)
  | query (name : String) (answer : Table → Except DatabaseError Query.Answer)
  | pointer (name : String)
  | list

/-- What is seen of a statement that changes the database. -/
def changedAnswer : Observation := .answer ⟨[], .rows []⟩

/-- The effect of a statement on the tables. -/
def effectOfStatement : Statement → Effect
  | .createTable s => .change (.create s.table (newTable s)) changedAnswer
  | .createIndex s =>
    .change (.alter s.table fun t => Addition.index s.index <$> newIndex t s) changedAnswer
  | .insert s => .change (.alter s.table fun t => Addition.rows <$> newRows t s) changedAnswer
  | .select s => .query s.table fun t => (Query.select t s).mapError .query

/-- The effect of an operation on the tables. -/
def Operation.effect : Operation → Effect
  | execute _ sql =>
    match parse sql with
    | .ok s => effectOfStatement s
    | .error e => .fail (.parse e)
  | createEntity name payload _ =>
    .change (.create name ((payload.toTable name).mapError .payload)) (.table name)
  | appendData name payload _ =>
    .change (.alter name fun t => Addition.rows <$> appendedRows t payload) (.table name)
  | pointer name => .pointer name
  | tables => .list

/-- The change that an operation makes, if it is one that makes a change. -/
def Effect.change? : Effect → Option Change
  | change c _ => some c
  | _ => none

/-- An effect has a change if and only if it is one. -/
lemma Effect.change?_eq_some_iff {e : Effect} {c : Change} :
    e.change? = some c ↔ ∃ seen, e = .change c seen := by
  cases e <;> simp [Effect.change?]

/-! ## Procedures of effects -/

/-- What a change has found and written. -/
structure Written where
  table : Table
  commit : Commit
  pointer : Pointer

/-- Creates a table. -/
def creating (name : String) (table : Except DatabaseError Table) :
    Procedure DatabaseError Written := do
  if (← request (.lookup name)).isSome then .fail (.tableExists name)
  else
    let t ← .ofExcept table
    let c ← commit name .sentinel (.ofTable t)
    let p ← request (.create name c.history)
    return ⟨t, c, p⟩

/-- Adds to a table, which is then moved under the name `key` gives. -/
def altering (key : Pointer → String) (name : String)
    (addition : Table → Except DatabaseError Addition) : Procedure DatabaseError Written := do
  let (p, t) ← loadTable name
  let a ← .ofExcept (addition t)
  let c ← commit p.table p.address (a.payload t)
  let q ← request (.repoint (key p) p.address c.history)
  return ⟨t, c, q⟩

/-- Answers from a table. -/
def querying {α : Type} (name : String) (answer : Table → Except DatabaseError α) :
    Procedure DatabaseError (Table × α) := do
  let (_, t) ← loadTable name
  let a ← .ofExcept (answer t)
  return (t, a)

/-- The procedures with an effect. A response to a change is given only if the change is made, and
then there is one. -/
inductive Implements : Procedure DatabaseError Response → Effect → Prop where
  | fail (e : DatabaseError) : Implements (.fail e) (.fail e)
  | create {name : String} {table : Except DatabaseError Table} {seen : Observation}
    {respond : Written → Except DatabaseError Response} :
    (∀ w, w.pointer.table = name → ∃ r, respond w = .ok r ∧ r.observation = seen) →
    Implements (creating name table >>= fun w => .ofExcept (respond w))
      (.change (.create name table) seen)
  | alter {key : Pointer → String} {name : String}
    {addition : Table → Except DatabaseError Addition} {seen : Observation}
    {respond : Written → Except DatabaseError Response} :
    (∀ p, p.table = name → key p = name) →
    (∀ w a, addition w.table = .ok a → w.pointer.table = name →
      ∃ r, respond w = .ok r ∧ r.observation = seen) →
    Implements (altering key name addition >>= fun w => .ofExcept (respond w))
      (.change (.alter name addition) seen)
  | query {name : String} {answer : Table → Except DatabaseError Query.Answer}
    {respond : Table × Query.Answer → Response} :
    (∀ x, (respond x).observation = .answer x.2) →
    Implements (querying name answer >>= fun x => .ofExcept (.ok (respond x))) (.query name answer)
  | pointer (name : String) :
    Implements (do return .pointer (← Database.pointer name)) (.pointer name)
  | list : Implements (do return .pointers (← Database.tables)) .list

/-! ## Effects of operations -/

/-- A computation with a result goes on with it. -/
lemma ofExcept_ok_bind {α β ε : Type} (a : α) (f : α → Procedure ε β) :
    (Procedure.ofExcept (.ok a) >>= f) = f a := rfl

/-- Defining a table is creating it and replying. -/
lemma createTable_eq (prover : Option Prover) (s : CreateTable) :
    (do return Response.reply (← createTable prover s)) =
      creating s.table (newTable s) >>= fun w => .ofExcept (.ok (Response.reply (changed w.commit
        (prover.map fun prove => prove ⟨w.table, [], []⟩)))) := by
  simp only [createTable, creating, bind_assoc]
  refine congrArg _ (funext fun found => ?_)
  split
  · rfl
  · simp only [bind_assoc]
    rfl

/-- Defining a table has the effect of the statement. -/
lemma implements_createTable (prover : Option Prover) (s : CreateTable) :
    Implements (do return .reply (← createTable prover s)) (effectOfStatement (.createTable s)) := by
  rw [createTable_eq]
  exact .create fun w _ => ⟨_, rfl, rfl⟩

/-- Defining an index is altering the table and replying. -/
lemma createIndex_eq (s : CreateIndex) :
    (do return Response.reply (← createIndex s)) =
      altering Pointer.table s.table (fun t => Addition.index s.index <$> newIndex t s) >>=
        fun w => .ofExcept (.ok (Response.reply (changed w.commit none))) := by
  simp only [createIndex, altering, bind_assoc]
  refine congrArg _ (funext fun found => ?_)
  cases newIndex found.2 s with
  | error e => rfl
  | ok ix =>
    simp only [advance, bind_assoc]
    rfl

/-- Defining an index has the effect of the statement. -/
lemma implements_createIndex (s : CreateIndex) :
    Implements (do return .reply (← createIndex s)) (effectOfStatement (.createIndex s)) := by
  rw [createIndex_eq]
  exact .alter (fun _ h => h) fun w _ _ _ => ⟨_, rfl, rfl⟩

/-- The values of a converted row are what the literals at their places stand for. -/
lemma convertRow_eq_ok_iff {columns : List Column} {literals : List String} {r : Row} :
    convertRow columns literals = .ok r ↔ literals.length = columns.length ∧
      List.Forall₂ (fun p x => convert p.1 p.2 = .ok x) (columns.zip literals) r := by
  rw [convertRow]
  split
  · rename_i hlength
    simp [hlength]
  · rename_i hlength
    rw [mapError_eq_ok_iff, mapM_eq_ok_iff, and_iff_right (not_not.1 hlength)]

/-- A row that literals are converted to is sound. -/
lemma isSound_of_convertRow {columns : List Column} {literals : List String} {r : Row}
    (h : convertRow columns literals = .ok r) : r.IsSound columns := by
  obtain ⟨hlength, hcells⟩ := convertRow_eq_ok_iff.1 h
  constructor
  · have htypes : ∀ (ps : List (Column × String)) (r : Row),
        List.Forall₂ (fun p x => convert p.1 p.2 = .ok x) ps r →
        r.map Scalar.type = ps.map fun p => p.1.type := by
      intro ps r hps
      induction hps with
      | nil => rfl
      | cons hp _ ih => rw [List.map_cons, List.map_cons, ih, type_convert hp]
    rw [Table.Fits, htypes _ _ hcells,
      show (fun p : Column × String => p.1.type) = Column.type ∘ Prod.fst from rfl,
      ← List.map_map, List.map_fst_zip hlength.ge]
  · intro x hx
    obtain ⟨p, -, hp⟩ := (exists_of_forall₂ hcells).2 x hx
    exact isFinite_of_convert hp

/-- Inserted rows can be held by the columns they are converted for. -/
lemma isSound_of_newRows {t : Table} {s : Insert} {rows : List Row} (h : newRows t s = .ok rows) :
    ∀ r ∈ rows, r.IsSound t.columns := by
  simp only [newRows] at h
  split at h
  · cases h
  · intro r hr
    obtain ⟨literals, -, hconvert⟩ := (exists_of_mapM_ok h).2 r hr
    exact isSound_of_convertRow hconvert

/-- Rows that fit are all added. -/
lemma pushAll_of_fits {t : Table} {rows : List Row} (h : ∀ r ∈ rows, Table.Fits t.columns r) :
    t.pushAll rows = .ok { t with rows := t.rows ++ rows } := by
  induction rows generalizing t with
  | nil => simp [Table.pushAll, pure, Except.pure]
  | cons r rows ih =>
    -- the first row fits the table, and the table with it has the same columns
    have hpush : t.push r = .ok { t with rows := t.rows ++ [r] } := by
      rw [Table.push, Table.rowError?_eq_none_iff.2 (h r List.mem_cons_self)]
    have hrest := ih (t := { t with rows := t.rows ++ [r] })
      fun q hq => h q (List.mem_cons_of_mem _ hq)
    rw [Table.pushAll] at hrest ⊢
    rw [List.foldlM_cons, hpush]
    refine hrest.trans ?_
    rw [List.append_assoc]
    rfl

/-- The reply to an insertion, whose proof is about the table with the inserted rows. -/
def insertReply (prover : Option Prover) (s : Insert) (w : Written) : Except DatabaseError Response :=
  match prover with
  | some prove => do
    let rows ← newRows w.table s
    let t ← (w.table.pushAll rows).mapError .internal
    return .reply (changed w.commit (some (prove ⟨t, [], rows⟩)))
  | none => return .reply (changed w.commit none)

/-- An insertion is altering the table and replying. -/
lemma insert_eq (prover : Option Prover) (s : Insert) :
    (do return Response.reply (← insert prover s)) =
      altering Pointer.table s.table (fun t => Addition.rows <$> newRows t s) >>= fun w =>
        .ofExcept (insertReply prover s w) := by
  simp only [insert, altering, bind_assoc]
  refine congrArg _ (funext fun found => ?_)
  cases hrows : newRows found.2 s with
  | error e => rfl
  | ok rows =>
    cases prover with
    | none =>
      simp only [advance, bind_assoc]
      rfl
    | some prove =>
      simp only [advance, bind_assoc, ofExcept_ok_bind]
      refine congrArg _ (funext fun c => congrArg _ (funext fun q => ?_))
      simp only [pure_bind, insertReply, hrows]
      cases hpush : found.2.pushAll rows <;>
        simp [Procedure.ofExcept, bind, Except.bind, Procedure.bind, Except.mapError, pure,
          Except.pure, hpush]

/-- An insertion has the effect of the statement. -/
lemma implements_insert (prover : Option Prover) (s : Insert) :
    Implements (do return .reply (← insert prover s)) (effectOfStatement (.insert s)) := by
  rw [insert_eq]
  refine .alter (fun _ h => h) fun w a ha _ => ?_
  cases hrows : newRows w.table s with
  | error e => rw [hrows] at ha; cases ha
  | ok rows =>
    cases prover with
    | none => exact ⟨_, rfl, rfl⟩
    | some prove =>
      -- the rows fit the table, so that its error is never the reply
      have hpush := pushAll_of_fits fun r hr => (isSound_of_newRows hrows r hr).fits
      simp only [insertReply, hrows, bind, Except.bind, hpush]
      exact ⟨_, rfl, rfl⟩

/-- A query is querying the table and replying. -/
lemma select_eq (prover : Option Prover) (s : Select) :
    (do return Response.reply (← select prover s)) =
      querying s.table (fun t => (Query.select t s).mapError .query) >>= fun x =>
        .ofExcept (.ok (Response.reply ⟨x.2, prover.map fun prove =>
          prove ⟨x.1, x.2.columns, x.2.result.allRows⟩, none⟩)) := by
  simp only [select, querying, bind_assoc]
  refine congrArg _ (funext fun found => ?_)
  cases Query.select found.2 s <;> rfl

/-- A query has the effect of the statement. -/
lemma implements_select (prover : Option Prover) (s : Select) :
    Implements (do return .reply (← select prover s)) (effectOfStatement (.select s)) := by
  rw [select_eq]
  exact .query fun x => rfl

/-- Creating an entity is creating a table and returning its registration. -/
lemma createEntity_eq (name : String) (payload : Payload) :
    (do return Response.pointer (← createEntity name payload)) =
      creating name ((payload.toTable name).mapError .payload) >>= fun w =>
        .ofExcept (.ok (Response.pointer w.pointer)) := by
  simp only [createEntity, creating, bind_assoc]
  refine congrArg _ (funext fun found => ?_)
  split
  · rfl
  · simp only [bind_assoc]
    rfl

/-- Creating an entity has its effect. -/
lemma implements_createEntity (name : String) (payload : Payload) :
    Implements (do return .pointer (← createEntity name payload))
      (.change (.create name ((payload.toTable name).mapError .payload)) (.table name)) := by
  rw [createEntity_eq]
  exact .create fun w hw => ⟨_, rfl, by rw [Response.observation, hw]⟩

/-- Appending data is altering a table and returning its registration. -/
lemma appendData_eq (name : String) (payload : Payload) :
    (do return Response.pointer (← appendData name payload)) =
      altering (fun _ => name) name (fun t => Addition.rows <$> appendedRows t payload) >>= fun w =>
        .ofExcept (.ok (Response.pointer w.pointer)) := by
  simp only [appendData, altering, bind_assoc]
  refine congrArg _ (funext fun found => ?_)
  cases appendedRows found.2 payload with
  | error e => rfl
  | ok rows => rfl

/-- Appending data has its effect. -/
lemma implements_appendData (name : String) (payload : Payload) :
    Implements (do return .pointer (← appendData name payload))
      (.change (.alter name fun t => Addition.rows <$> appendedRows t payload) (.table name)) := by
  rw [appendData_eq]
  exact .alter (fun _ _ => rfl) fun w _ _ hw => ⟨_, rfl, by rw [Response.observation, hw]⟩

/-- The procedure of every operation has the effect of the operation. -/
theorem implements_effect (op : Operation) : Implements op.procedure op.effect := by
  cases op with
  | execute prover sql =>
    simp only [Operation.procedure, Operation.effect, execute]
    cases parse sql with
    | error e => exact .fail (.parse e)
    | ok s =>
      cases s with
      | createTable s => exact implements_createTable prover s
      | createIndex s => exact implements_createIndex s
      | insert s => exact implements_insert prover s
      | select s => exact implements_select prover s
  | createEntity name payload => exact implements_createEntity name payload
  | appendData name payload => exact implements_appendData name payload
  | pointer name => exact .pointer name
  | tables => exact .list

end Database

end ProvenTables
