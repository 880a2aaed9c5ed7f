import ProvenTables.Database.Error
import ProvenTables.Membership.Prover
import ProvenTables.Sql.Parser
import ProvenTables.Storage.History

/-!
# Statements on a database

A statement is executed in a fixed order: look up the table, replay it, evaluate or change it, write
what has changed, move the table to its new address, and last prove that its rows are rows of the
table. The table is moved only if every earlier step has succeeded, and a proof that fails leaves
the statement executed.
-/

namespace ProvenTables

/-- How a claim of membership is proved, by work that ends. -/
abbrev Prover := Membership.Claim → Membership.ProofOutcome

/-- The answer to a statement, with what is made of the claim that goes with it. -/
structure ReplyWith (P : Type) where
  answer : Query.Answer
  /-- What is made of the claim, if a proof was asked for and applies. -/
  proof : Option P
  /-- The addresses written by a statement that changes the database. -/
  commit : Option Storage.Commit

/-- The answer to a statement, with its proof. -/
abbrev Reply := ReplyWith Membership.ProofOutcome

/-- The reply with something else made of its claim. -/
def ReplyWith.map {P Q : Type} (f : P → Q) (r : ReplyWith P) : ReplyWith Q :=
  ⟨r.answer, r.proof.map f, r.commit⟩

/-- The reply once the work on its claim has ended; there is none if that dies or goes on. -/
def ReplyWith.awaited (r : ReplyWith (Membership.Work Membership.ProofOutcome)) :
    Membership.Work Reply :=
  match r.proof with
  | none => .ends ⟨r.answer, none, r.commit⟩
  | some w => w.map fun outcome => ⟨r.answer, some outcome, r.commit⟩

namespace Database

open Sql

variable {P : Type}

/-- The reply to a change: no rows. -/
def changed (c : Storage.Commit) (proof : Option P) : ReplyWith P := ⟨⟨[], .rows []⟩, proof, some c⟩

/-- A request of a statement. -/
def request (r : Request) : Procedure DatabaseError r.Result :=
  (Procedure.request r).mapError .storage

/-- The registration of a table. -/
def pointer (table : String) : Procedure DatabaseError Pointer := do
  match ← request (.lookup table) with
  | some p => return p
  | none => .fail (.unknownTable table)

/-- The registration and the present state of a table. -/
def loadTable (table : String) : Procedure DatabaseError (Pointer × Table) := do
  let p ← pointer table
  let t ← (Storage.replay p.table p.address).mapError .storage
  return (p, t)

/-- Stores a payload behind a history. -/
def commit (table : String) (previous : Address) (payload : Payload) :
    Procedure DatabaseError Storage.Commit :=
  (Storage.commit table previous payload).mapError .storage

/-- Appends a payload to a registered table and moves the table. -/
def advance (p : Pointer) (payload : Payload) : Procedure DatabaseError Storage.Commit := do
  let c ← commit p.table p.address payload
  let _ ← request (.repoint p.table p.address c.history)
  return c

/-- The table that a statement creates. -/
def newTable (s : CreateTable) : Except DatabaseError Table :=
  (Table.create s.table s.columns).mapError .schema

/-- Creates a table. -/
def createTable (prover : Option (Membership.Claim → P)) (s : CreateTable) :
    Procedure DatabaseError (ReplyWith P) := do
  if (← request (.lookup s.table)).isSome then .fail (.tableExists s.table)
  else
    let t ← .ofExcept (newTable s)
    let c ← commit s.table .sentinel (.ofTable t)
    let _ ← request (.create s.table c.history)
    return changed c (prover.map fun prove => prove ⟨t, [], []⟩)

/-- The index that a statement creates: a snapshot of the rows. -/
def newIndex (t : Table) (s : CreateIndex) : Except DatabaseError Index :=
  match t.position? s.column with
  | some position => .ok (Index.build t.rows position)
  | none => .error (.query (.unknownColumn t.name s.column))

/-- Creates an index; no claim goes with it. -/
def createIndex (s : CreateIndex) : Procedure DatabaseError (ReplyWith P) := do
  let (p, t) ← loadTable s.table
  let ix ← .ofExcept (newIndex t s)
  let c ← advance p (.ofIndex t s.index ix)
  return changed c none

/-- The row that literals stand for, one for each column. -/
def convertRow (columns : List Column) (literals : List String) : Except DatabaseError Row :=
  if literals.length ≠ columns.length then
    .error (.valueCount columns.length literals.length)
  else
    ((columns.zip literals).mapM fun p => convert p.1 p.2).mapError .conversion

/-- The rows that a statement inserts; it names all columns in their order. -/
def newRows (t : Table) (s : Insert) : Except DatabaseError (List Row) :=
  if s.columns ≠ t.columnNames then .error (.columnMismatch t.columnNames s.columns)
  else s.rows.mapM (convertRow t.columns)

/-- Inserts rows. -/
def insert (prover : Option (Membership.Claim → P)) (s : Insert) :
    Procedure DatabaseError (ReplyWith P) := do
  let (p, t) ← loadTable s.table
  let rows ← .ofExcept (newRows t s)
  let c ← advance p (.ofRows t rows)
  match prover with
  | some prove =>
    let t ← .ofExcept ((t.pushAll rows).mapError .internal)
    return changed c (some (prove ⟨t, [], rows⟩))
  | none => return changed c none

/-- Answers a query. -/
def select (prover : Option (Membership.Claim → P)) (s : Select) :
    Procedure DatabaseError (ReplyWith P) := do
  let (_, t) ← loadTable s.table
  let a ← .ofExcept ((Query.select t s).mapError .query)
  return ⟨a, prover.map fun prove => prove ⟨t, a.columns, a.result.allRows⟩, none⟩

/-- Executes a statement. What is to be made of a claim is left open: a proof, the work on one, or the
claim itself. -/
def executeStatement (prover : Option (Membership.Claim → P)) :
    Statement → Procedure DatabaseError (ReplyWith P)
  | .createTable s => createTable prover s
  | .createIndex s => createIndex s
  | .insert s => insert prover s
  | .select s => select prover s

/-- Executes the text of a statement. -/
def execute (prover : Option (Membership.Claim → P)) (sql : String) :
    Procedure DatabaseError (ReplyWith P) := do
  executeStatement prover (← .ofExcept ((parse sql).mapError .parse))

/-! ## Claims -/

variable {Q : Type} (f : P → Q) (prover : Option (Membership.Claim → P))

/-- Something else is made of the claim of a table that is created. -/
theorem createTable_map (s : CreateTable) :
    createTable (prover.map (f ∘ ·)) s = ReplyWith.map f <$> createTable prover s := by
  simp only [createTable, map_bind]
  refine congrArg _ (funext fun found => ?_)
  split
  · rfl
  · simp only [map_bind]
    cases prover <;> rfl

/-- No claim goes with an index. -/
theorem createIndex_map (s : CreateIndex) :
    createIndex s = ReplyWith.map f <$> createIndex s := by
  simp only [createIndex, map_bind]
  rfl

/-- Something else is made of the claim of inserted rows. -/
theorem insert_map (s : Insert) :
    insert (prover.map (f ∘ ·)) s = ReplyWith.map f <$> insert prover s := by
  cases prover with
  | none =>
    simp only [insert, Option.map_none, map_bind]
    rfl
  | some prove =>
    simp only [insert, Option.map_some, map_bind]
    rfl

/-- Something else is made of the claim of an answer. -/
theorem select_map (s : Select) :
    select (prover.map (f ∘ ·)) s = ReplyWith.map f <$> select prover s := by
  simp only [select, map_bind]
  cases prover <;> rfl

/-- What is made of claims decides nothing but what stands in their place in the reply. -/
theorem execute_map (sql : String) :
    execute (prover.map (f ∘ ·)) sql = ReplyWith.map f <$> execute prover sql := by
  simp only [execute, map_bind]
  refine congrArg _ (funext fun s => ?_)
  cases s with
  | createTable s => exact createTable_map f prover s
  | createIndex s => exact createIndex_map f s
  | insert s => exact insert_map f prover s
  | select s => exact select_map f prover s

/-- What stands in the reply has been made of a claim. -/
theorem exists_claim_of_execute {σ : Type} {answer : (r : Request) → σ → r.Answer × σ} {sql : String}
    {s : σ} {r : ReplyWith P} {p : P} (h : ((execute prover sql).run answer s).1 = .ok r)
    (hp : r.proof = some p) : ∃ prove ∈ prover, ∃ claim, prove claim = p := by
  cases prover with
  | none =>
    -- without a prover the reply is one that could hold anything in the place of a proof
    have hmap := execute_map (P := Empty) (Empty.elim : Empty → P) none sql
    rw [Option.map_none] at hmap
    rw [hmap, Procedure.run_map] at h
    cases hrun : ((execute none sql).run answer s).1 with
    | error e =>
      rw [hrun] at h
      cases h
    | ok r' =>
      rw [hrun] at h
      cases h
      obtain ⟨nothing, -, -⟩ := Option.map_eq_some_iff.1 hp
      exact nothing.elim
  | some prove =>
    have hmap := execute_map prove (some id) sql
    rw [Option.map_some, Function.comp_id] at hmap
    rw [hmap, Procedure.run_map] at h
    cases hrun : ((execute (some id) sql).run answer s).1 with
    | error e =>
      rw [hrun] at h
      cases h
    | ok r' =>
      rw [hrun] at h
      cases h
      obtain ⟨claim, -, hclaim⟩ := Option.map_eq_some_iff.1 hp
      exact ⟨prove, rfl, claim, hclaim⟩

end Database

end ProvenTables
