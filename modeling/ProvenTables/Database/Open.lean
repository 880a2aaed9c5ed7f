import ProvenTables.Config.Server
import ProvenTables.Database.Entity
import ProvenTables.Embedding
import ProvenTables.Storage.Medium

/-!
# Open databases

A database that has been opened with a configuration, in memory or in a directory.
-/

open ProvenTables.Membership

namespace ProvenTables

namespace Database

/-- What the caller is told of an outcome once the work on the claim has ended. -/
def awaited : Except DatabaseError (ReplyWith (Work ProofOutcome)) → Work (Except DatabaseError Reply)
  | .ok r => r.awaited.map .ok
  | .error e => .ends (.error e)

/-- The caller is told the outcome if the work that stands in it ends. -/
theorem ends_awaited {outcome : Except DatabaseError (ReplyWith (Work ProofOutcome))}
    (h : ∀ r, outcome = .ok r → ∀ w, r.proof = some w → w.Ends) : (awaited outcome).Ends := by
  cases outcome with
  | error e => exact .intro _
  | ok r =>
    refine Work.ends_map.2 ?_
    rw [ReplyWith.awaited]
    split
    · exact .intro _
    · rename_i w hproof
      exact Work.ends_map.2 (h r rfl w hproof)

/-- What becomes of a call that executes a statement, and the medium after it. The claim is worked on
last, and the caller waits for that: if the work dies or goes on, so does the call, although the statement
has been executed. -/
def call (attempt : Option (Claim → Work ProofOutcome)) (sql : String) (m : Medium) :
    Work (Except DatabaseError Reply) × Medium :=
  let executed := (execute attempt sql).runOn m
  (awaited executed.1, executed.2)

/-- A call makes the requests of the statement, and then waits for the work on its claim. -/
theorem call_eq (attempt : Option (Claim → Work ProofOutcome)) (sql : String) (m : Medium) :
    call attempt sql m = (awaited ((execute attempt sql).run Medium.answer m).1,
      ((execute attempt sql).run Medium.answer m).2) := rfl

/-- A call returns if the work on its claim ends. -/
theorem ends_call {attempt : Option (Claim → Work ProofOutcome)}
    (h : ∀ a ∈ attempt, ∀ claim, (a claim).Ends) (sql : String) (m : Medium) :
    (call attempt sql m).1.Ends := by
  simp only [call_eq]
  refine ends_awaited fun r hrun w hproof => ?_
  obtain ⟨a, ha, claim, rfl⟩ := exists_claim_of_execute attempt hrun hproof
  exact h a ha claim

/-- What a call that returns gives, and the medium after it. -/
def returned {α : Type} (called : Work α × Medium) (h : called.1.Ends) : α × Medium :=
  (called.1.result h, called.2)

end Database

/-- A database that has been opened with a configuration. -/
structure OpenDatabase where
  config : ServerConfig
  medium : Medium

namespace OpenDatabase

/-- A new database in memory. -/
def inMemory (config : ServerConfig) : OpenDatabase := ⟨config, .memory .empty⟩

/-- The database in a directory. -/
def inDirectory (config : ServerConfig) (disk : Disk) : Except StorageError OpenDatabase := do
  return ⟨config, .directory (← Directory.mount disk config.retry.policy)⟩

/-- The challenge of proofs; a random one is the given point. -/
def challenge (db : OpenDatabase) (point : Nat) : Challenge :=
  match db.config.proof.challenge with
  | .random => .chosen point
  | .transcript => .transcript

/-- What becomes of proving a claim. One statement is executed at a time, so all slots are free. -/
def attempt (db : OpenDatabase) (point : Nat) : Claim → Work ProofOutcome :=
  Membership.attempt (.transcript .bn254) (db.challenge point) db.config.proof.limit? .free

/-- The same for a statement that asks for a proof, asks for none, or leaves it to the
configuration. -/
def attemptFor (db : OpenDatabase) (point : Nat) (prove : Option Bool) :
    Option (Claim → Work ProofOutcome) :=
  if prove.getD db.config.proof.enabled then some (db.attempt point) else none

/-- Performs a procedure on the database. -/
def perform {ε α : Type} (db : OpenDatabase) (p : Procedure ε α) : Except ε α × OpenDatabase :=
  let (outcome, medium) := p.runOn db.medium
  (outcome, { db with medium := medium })

/-- The digest backend proves every claim or says why not, so that every call returns. -/
theorem ends_call (db : OpenDatabase) (point : Nat) (sql : String) (prove : Option Bool) :
    (Database.call (db.attemptFor point prove) sql db.medium).1.Ends := by
  have hattempt : ∀ a ∈ db.attemptFor point prove, ∀ claim, (a claim).Ends := by
    intro a ha claim
    rw [attemptFor] at ha
    split at ha
    · cases ha
      exact ends_attempt (fun _ => Backend.returns_transcript (by decide) (by decide)) _ _ claim
    · cases ha
  exact Database.ends_call hattempt sql db.medium

/-- Executes a statement. -/
def execute (db : OpenDatabase) (point : Nat) (sql : String) (prove : Option Bool) :
    Except DatabaseError Reply × OpenDatabase :=
  let (outcome, medium) := Database.returned (Database.call (db.attemptFor point prove) sql db.medium)
    (db.ends_call point sql prove)
  (outcome, { db with medium := medium })

/-- The embedding of a text. -/
def embed (db : OpenDatabase) (text : String) : List Binary64 :=
  Embedding.ofText db.config.dimension.toNat text

end OpenDatabase

end ProvenTables
