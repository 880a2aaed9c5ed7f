import ProvenTables.Membership.Prover

/-!
# Workers

Any number of requests for proofs within time limits, which share the slots of a prover. A request asks
for a slot and starts a worker, which takes over the slot and gives it back when its thread ends,
whatever has become of the work and whether or not the requester still waits.
-/

namespace ProvenTables.Membership

/-- The work of a request and how long its requester waits for it. -/
structure Job where
  work : Work (Except MembershipError (Circuit × Proof))
  timeout : Nat

/-- The thread of a worker: its work goes on, or the thread is about to end, or it has ended. -/
inductive Thread where
  | working
  | leaving
  | ended
  deriving DecidableEq

/-- How far a request is. -/
inductive Phase where
  | idle
  /-- There was no slot. -/
  | refused (e : MembershipError)
  /-- It has a slot and no worker yet. -/
  | starting
  | notStarted (reason : String)
  /-- Its worker has the slot. There is an outcome once the requester stops waiting, and a message
  from the worker until the requester receives it. -/
  | started (outcome : Option ProofOutcome) (thread : Thread)
      (message : Option (Except MembershipError (Circuit × Proof)))

/-- A proof that has been asked for and how far it is. -/
structure Task where
  job : Job
  phase : Phase

/-- What the requester has learned. -/
def Phase.outcome? : Phase → Option ProofOutcome
  | idle | starting => none
  | refused e => some (.failed e)
  | notStarted reason => some (.failed (.notStarted reason))
  | started outcome _ _ => outcome

/-- An atomic step of a request or of its worker. -/
inductive Move where
  | acquire
  /-- Starts the worker, or there is a reason why there is none. -/
  | start (failure : Option String)
  /-- The work ends or dies. -/
  | finish
  /-- The thread ends. -/
  | leave
  | receive
  | giveUp
  /-- The requester sees that there is nobody left to hear from. -/
  | disconnect
  deriving DecidableEq

/-- What is done with a slot. -/
inductive SlotUse where
  | taken
  | given
  deriving DecidableEq

/-- A request after a move, the slots after it, and what is done with one of them; none, if the move is
not possible. -/
def Task.move (t : Task) (slots : Slots) (m : Move) : Option (Phase × Slots × Option SlotUse) :=
  match t.phase, m with
  | .idle, .acquire =>
    match slots.acquire with
    | .ok slots => some (.starting, slots, some .taken)
    | .error e => some (.refused e, slots, none)
  | .starting, .start none => some (.started none .working none, slots, none)
  | .starting, .start (some reason) =>
    some (.notStarted reason, slots.release, some .given)
  | .started outcome .working message, .finish =>
    match t.job.work with
    | .ends r => some (.started outcome .leaving (some r), slots, none)
    | .dies => some (.started outcome .leaving message, slots, none)
    | .stalls => none
  | .started outcome .leaving message, .leave =>
    some (.started outcome .ended message, slots.release, some .given)
  | .started none thread (some r), .receive =>
    some (.started (some (.ofExcept r)) thread none, slots, none)
  | .started none thread message, .giveUp =>
    some (.started (some (.failed (.timeout t.job.timeout))) thread message, slots, none)
  | .started none .ended none, .disconnect =>
    some (.started (some (.failed .noResult)) .ended none, slots, none)
  | _, _ => none

/-- Requests that share the slots of a prover. -/
structure Workers where
  slots : Slots
  tasks : List Task
  /-- What has been done with slots, each time with the number of the request. -/
  log : List (Nat × SlotUse)

namespace Workers

/-- No request has asked for a slot yet. -/
def idle (limit : Nat) (jobs : List Job) : Workers := ⟨⟨0, limit⟩, jobs.map (⟨·, .idle⟩), []⟩

/-- The requests after a move of one of them. Nothing happens if the move is not possible. -/
def act (s : Workers) (i : Nat) (m : Move) : Workers :=
  match s.tasks[i]? with
  | none => s
  | some t =>
    match t.move s.slots m with
    | none => s
    | some (phase, slots, use) =>
      ⟨slots, s.tasks.set i { t with phase := phase }, s.log ++ use.toList.map (i, ·)⟩

/-- The requests after moves in their order. -/
def run (s : Workers) (moves : List (Nat × Move)) : Workers :=
  moves.foldl (fun s (i, m) => s.act i m) s

end Workers

end ProvenTables.Membership
