import ProvenTables.Database.Open
import ProvenTables.Proofs.Database.OwnAddresses
import ProvenTables.Proofs.Storage.Files

/-!
# Restarts

A database in a directory gives the results of a database in memory, also if the directory is opened
again between any two calls. Every content is kept under its own address, which is one that a directory
accepts, so that each request is answered alike; and what is read when the directory is opened again is
what the process before it had.
-/

namespace ProvenTables

open Procedure (KeepsOwn)

/-! ## Directories -/

/-- The address of a content is one that a directory accepts. -/
lemma Request.IsOwn.isDigest {r : Request} (hr : r.IsOwn) (a : Address) (c : String)
    (h : r = .keep a c) : a.isDigest = true := by
  subst h
  cases hr
  exact Address.isDigest_ofText c

namespace Directory

variable {d : Directory} {m : Memory}

/-- Opening the directory again, with any retries, gives a directory that holds the same. -/
lemma Holds.remount (h : d.Holds m) (retry : RetryPolicy) :
    ∃ d', Directory.mount d.disk retry = .ok d' ∧ d'.Holds m := by
  refine ⟨{ d with retry := retry }, ?_, h.objects, h.registry, h.file⟩
  rw [Directory.mount, h.file]
  rfl

/-- A procedure comes to the same outcome on a directory as on the memory that the directory holds, and
leaves the directory holding what it leaves of the memory. -/
theorem Holds.run {ε α : Type} {p : Procedure ε α} (hp : p.KeepsOwn) (h : d.Holds m) :
    ∃ d', p.runOn (.directory d) = ((p.run Memory.answer m).1, .directory d') ∧
      d'.Holds (p.run Memory.answer m).2 := by
  induction p generalizing d m with
  | done o => exact ⟨d, rfl, h⟩
  | step r next ih =>
    obtain ⟨hanswer, hholds⟩ := h.answer hp.1.isDigest
    obtain ⟨d', hrun, hend⟩ := ih (Directory.answer r d).1 (hp.2 _) hholds
    rw [hanswer] at hrun hend
    refine ⟨d', Eq.trans ?_ hrun, hend⟩
    rw [← hanswer]
    rfl

end Directory

/-- A procedure on a database in memory. -/
lemma Procedure.runOn_memory {ε α : Type} (p : Procedure ε α) (m : Memory) :
    p.runOn (.memory m) = ((p.run Memory.answer m).1, .memory (p.run Memory.answer m).2) := by
  induction p generalizing m with
  | done o => rfl
  | step r next ih => exact ih (Memory.answer r m).1 (Memory.answer r m).2

/-! ## Sessions -/

namespace Database

/-- What is asked of an open database. -/
inductive Call where
  | operation (op : Operation)
  | embed (text : String)

/-- What a call returns. -/
inductive Result where
  | outcome (o : Except DatabaseError Response)
  | vector (v : List Binary64)

/-- What is done with a database. -/
inductive SessionStep where
  | call (c : Call)
  | reopen

/-- The call of a step, if it is one. -/
def SessionStep.call? : SessionStep → Option Call
  | call c => some c
  | reopen => none

end Database

namespace OpenDatabase

open Database

/-- What a call returns, and the database after it. -/
def ask (db : OpenDatabase) : Call → Result × OpenDatabase
  | .operation op =>
    let (outcome, db) := db.perform op.procedure
    (.outcome outcome, db)
  | .embed text => (.vector (db.embed text), db)

/-- The results of calls, one after the other, and the database after them. -/
def askAll (db : OpenDatabase) : List Call → List Result × OpenDatabase
  | [] => ([], db)
  | c :: cs =>
    let (r, db) := db.ask c
    let (rs, db) := db.askAll cs
    (r :: rs, db)

/-- The database that is opened with the configuration after the process has stopped: nothing is left of
what is only in its memory. -/
def reopen (db : OpenDatabase) : Except StorageError OpenDatabase :=
  match db.medium with
  | .memory _ => .ok (inMemory db.config)
  | .directory d => inDirectory db.config d.disk
  | .contended _ => .ok db

/-- The results of the calls among steps, and the database after them. -/
def session (db : OpenDatabase) : List SessionStep → Except StorageError (List Result × OpenDatabase)
  | [] => .ok ([], db)
  | .call c :: steps => do
    let (r, db) := db.ask c
    let (rs, db) ← db.session steps
    return (r :: rs, db)
  | .reopen :: steps => do (← db.reopen).session steps

variable {d : Directory} {m : Memory}

/-- A call has the same result on a directory as on the memory that the directory holds. -/
lemma ask_directory (config : ServerConfig) (h : d.Holds m) (c : Call) :
    ∃ r d' m', ask ⟨config, .directory d⟩ c = (r, ⟨config, .directory d'⟩) ∧
      ask ⟨config, .memory m⟩ c = (r, ⟨config, .memory m'⟩) ∧ d'.Holds m' := by
  cases c with
  | operation op =>
    obtain ⟨d', hrun, hend⟩ := h.run (keepsOwn_operation op)
    refine ⟨.outcome (op.procedure.run Memory.answer m).1, d', _, ?_, ?_, hend⟩
    · simp only [ask, perform, hrun]
    · simp only [ask, perform, Procedure.runOn_memory]
  | embed text => exact ⟨_, d, m, rfl, rfl, h⟩

/-- A session on a directory returns what a database in memory returns, which is never opened again. -/
lemma session_directory (config : ServerConfig) (h : d.Holds m) (steps : List SessionStep) :
    ∃ rs d' m', session ⟨config, .directory d⟩ steps = .ok (rs, ⟨config, .directory d'⟩) ∧
      askAll ⟨config, .memory m⟩ (steps.filterMap SessionStep.call?) = (rs, ⟨config, .memory m'⟩) ∧
      d'.Holds m' := by
  induction steps generalizing d m with
  | nil => exact ⟨[], d, m, rfl, rfl, h⟩
  | cons step steps ih =>
    cases step with
    | call c =>
      obtain ⟨r, d₁, m₁, hdirectory, hmemory, hholds⟩ := ask_directory config h c
      obtain ⟨rs, d₂, m₂, hrest, hcalls, hend⟩ := ih hholds
      refine ⟨r :: rs, d₂, m₂, ?_, ?_, hend⟩
      · rw [session, hdirectory]
        simp only [hrest]
        rfl
      · rw [List.filterMap_cons]
        simp only [SessionStep.call?, askAll, hmemory, hcalls]
    | reopen =>
      obtain ⟨d₁, hmount, hholds⟩ := h.remount config.retry.policy
      obtain ⟨rs, d₂, m₂, hrest, hcalls, hend⟩ := ih hholds
      refine ⟨rs, d₂, m₂, ?_, hcalls, hend⟩
      rw [session, reopen]
      simp only [inDirectory, hmount]
      exact hrest

/-- Whatever is asked of a database in a directory that was empty, and wherever between the calls the
directory is opened again: it can be opened each time, and the results are those of the same calls to a
database in memory. -/
theorem session_inDirectory (config : ServerConfig) (steps : List SessionStep) :
    ∃ db db', inDirectory config .empty = .ok db ∧
      db.session steps =
        .ok (((inMemory config).askAll (steps.filterMap SessionStep.call?)).1, db') := by
  obtain ⟨rs, d, m, hsession, hcalls, -⟩ :=
    session_directory config (Directory.holds_empty config.retry.policy) steps
  refine ⟨_, ⟨config, .directory d⟩, rfl, hsession.trans ?_⟩
  simp only [inMemory, hcalls]

end OpenDatabase

end ProvenTables
