import ProvenTables.Membership.Circuit

/-!
# Provers

A prover compiles witnesses and proves circuits. Work with a time limit takes one of a bounded
number of slots and holds it until it ends, also if its requester has stopped waiting.
-/

namespace ProvenTables.Membership

/-! ## Work -/

/-- What becomes of a piece of work: it ends, it dies, or it goes on for longer than anyone
waits. -/
inductive Work (α : Type) where
  | ends (a : α)
  | dies
  | stalls

namespace Work

variable {α β ε : Type}

/-- Goes on with what the work comes to, if it ends. -/
def bind : Work α → (α → Work β) → Work β
  | ends a, f => f a
  | dies, _ => dies
  | stalls, _ => stalls

/-- The work with a function applied to what it comes to. -/
def map (f : α → β) (w : Work α) : Work β := w.bind fun a => ends (f a)

/-- Goes on with what the work comes to, if it ends and succeeds. -/
def andThen (w : Work (Except ε α)) (f : α → Work (Except ε β)) : Work (Except ε β) :=
  w.bind fun
    | .ok a => f a
    | .error e => ends (.error e)

/-- The work ends. -/
inductive Ends : Work α → Prop
  | intro (a : α) : (ends a).Ends

/-- What work that ends comes to. -/
def result : (w : Work α) → w.Ends → α
  | ends a, _ => a

/-- Work that ends comes to its result. -/
theorem eq_ends_result : ∀ {w : Work α} (h : w.Ends), w = ends (w.result h)
  | ends _, _ => rfl

/-- Work ends with a function applied to its result exactly if it ends. -/
theorem ends_map {f : α → β} {w : Work α} : (w.map f).Ends ↔ w.Ends := by
  constructor
  · intro h
    cases w with
    | ends a => exact .intro a
    | dies => cases h
    | stalls => cases h
  · rintro ⟨a⟩
    exact .intro (f a)

/-- Work that is gone on with ends if both its parts do. -/
theorem Ends.andThen {w : Work (Except ε α)} {f : α → Work (Except ε β)} (h : w.Ends)
    (hf : ∀ a, (f a).Ends) : (w.andThen f).Ends := by
  match w, h with
  | ends (.ok a), _ => exact hf a
  | ends (.error e), _ => exact .intro (Except.error e)

end Work

/-! ## Claims -/

/-- A claim that records, with the named columns, come from a table. -/
structure Claim where
  table : Table
  names : List String
  records : List Row

namespace Claim

/-- What becomes of encoding cells for a field of order zero: the first cell that has an integer dies
where the integer is reduced. -/
def encodeAtZero (cells : List ((Nat × Column) × Scalar))
    (next : Work (Except MembershipError Witness)) : Work (Except MembershipError Witness) :=
  match cells with
  | [] => next
  | (placed, v) :: _ =>
    match encodeScalar placed.2.type v with
    | .ok _ => .dies
    | .error e => .ends (.error e)

/-- The work of building a witness for a field of order zero. If no cell dies, the challenge does. -/
def witnessAtZero (claim : Claim) : Work (Except MembershipError Witness) :=
  encodeAtZero (claim.table.rows.flatMap (placedColumns claim.table).zip) <|
    match recordColumns claim.table claim.names with
    | .error e => .ends (.error e)
    | .ok columns => encodeAtZero (claim.records.flatMap (distinctCells [] columns)) .dies

/-- The work of building the witness of a claim. It dies where it reduces modulo zero: cells and the
challenge by the order, and the operands of the witness by the scale. -/
def witness (params : Params) (challenge : Challenge) (claim : Claim) :
    Work (Except MembershipError Witness) :=
  if params.order = 0 then claim.witnessAtZero
  else
    match Witness.build params challenge claim.table claim.names claim.records with
    | .error e => .ends (.error e)
    | .ok w => if params.scale = 0 then .dies else .ends (.ok w)

end Claim

/-! ## Backends -/

/-- A proving system: the moduli it works with, its compiler and its prover. -/
structure Backend where
  params : Params
  compile : Witness → Work (Except MembershipError Circuit)
  prove : Circuit → Work (Except MembershipError Proof)

namespace Backend

/-- The proving system whose proofs are digests. -/
def transcript (params : Params) : Backend where
  params := params
  compile w := .ends (.ok (.ofWitness w))
  prove c := .ends c.prove

/-- The moduli of the backend are positive, and its calls return, with success or any error. -/
structure Returns (backend : Backend) : Prop where
  order : 1 ≤ backend.params.order
  scale : 1 ≤ backend.params.scale
  compile : ∀ w, (backend.compile w).Ends
  prove : ∀ c, (backend.prove c).Ends

/-- The calls of the digest backend return. -/
theorem returns_transcript {params : Params} (horder : 1 ≤ params.order) (hscale : 1 ≤ params.scale) :
    (transcript params).Returns :=
  ⟨horder, hscale, fun _ => .intro _, fun _ => .intro _⟩

end Backend

/-- A circuit with its proof, or why there is none. -/
inductive ProofOutcome where
  | proven (circuit : Circuit) (proof : Proof)
  | failed (cause : MembershipError)
  deriving DecidableEq

/-- The outcome of work that has ended. -/
def ProofOutcome.ofExcept : Except MembershipError (Circuit × Proof) → ProofOutcome
  | .ok (c, p) => .proven c p
  | .error e => .failed e

/-- The work of proving a claim. -/
def work (backend : Backend) (challenge : Challenge) (claim : Claim) :
    Work (Except MembershipError (Circuit × Proof)) :=
  if claim.table.columns.isEmpty then .ends (.error .noColumns)
  else
    (claim.witness backend.params challenge).andThen fun w =>
      (backend.compile w).andThen fun c =>
        (backend.prove c).andThen fun p => .ends (.ok (c, p))

/-- For positive moduli a witness is built, or there is a reason why not. -/
theorem Claim.witness_of_pos {params : Params} (horder : 1 ≤ params.order) (hscale : 1 ≤ params.scale)
    (challenge : Challenge) (claim : Claim) : claim.witness params challenge =
      .ends (Witness.build params challenge claim.table claim.names claim.records) := by
  rw [witness, if_neg (by omega)]
  split
  · rename_i h
    rw [h]
  · rename_i h
    rw [h, if_neg (by omega)]

/-- The work on a claim ends if the calls of the backend return. -/
theorem Backend.Returns.ends_work {backend : Backend} (h : backend.Returns) (challenge : Challenge)
    (claim : Claim) : (work backend challenge claim).Ends := by
  rw [work]
  split
  · exact .intro _
  · rw [claim.witness_of_pos h.order h.scale]
    exact .andThen (.intro _) fun w =>
      (h.compile w).andThen fun c => (h.prove c).andThen fun p => .intro (Except.ok (c, p))

/-! ## Slots and time limits -/

/-- The slots of a prover: how many are taken, and how many there are. -/
structure Slots where
  inFlight : Nat
  limit : Nat
  deriving DecidableEq

namespace Slots

/-- How many pieces of work with a time limit may go on at once. -/
def most : Nat := 8

/-- No proof runs, and as many as the default allows may. -/
def free : Slots := ⟨0, most⟩

/-- A proof takes a slot, or the slots are busy. -/
def acquire (s : Slots) : Except MembershipError Slots :=
  if s.inFlight < s.limit then .ok { s with inFlight := s.inFlight + 1 }
  else .error (.busy s.inFlight)

/-- A proof leaves its slot. -/
def release (s : Slots) : Slots := { s with inFlight := s.inFlight - 1 }

end Slots

/-- What a requester with a time limit learns of work that has a slot, and the slots afterwards. -/
def await (timeout : Nat) (s : Slots) :
    Work (Except MembershipError (Circuit × Proof)) → ProofOutcome × Slots
  | .ends r => (.ofExcept r, s.release)
  | .dies => (.failed .noResult, s.release)
  | .stalls => (.failed (.timeout timeout), s)

/-- Proves a claim within a time limit, given in nanoseconds. -/
def proveWithin (backend : Backend) (challenge : Challenge) (timeout : Nat) (claim : Claim)
    (s : Slots) : ProofOutcome × Slots :=
  match s.acquire with
  | .error e => (.failed e, s)
  | .ok s => await timeout s (work backend challenge claim)

/-- Proves a claim without a time limit; no slot is needed. The requester does the work, and so dies or
goes on with it. -/
def prove (backend : Backend) (challenge : Challenge) (claim : Claim) : Work ProofOutcome :=
  (work backend challenge claim).map .ofExcept

/-- Proves a claim within a time limit, if there is one. -/
def generate (backend : Backend) (challenge : Challenge) (timeout : Option Nat) (claim : Claim)
    (s : Slots) : Work ProofOutcome × Slots :=
  match timeout with
  | some t =>
    let (outcome, s) := proveWithin backend challenge t claim s
    (.ends outcome, s)
  | none => (prove backend challenge claim, s)

/-- What becomes of proving a claim, for the requester. -/
def attempt (backend : Backend) (challenge : Challenge) (timeout : Option Nat) (s : Slots)
    (claim : Claim) : Work ProofOutcome :=
  (generate backend challenge timeout claim s).1

/-- A requester who waits for a limited time, or for a backend whose calls return, learns an outcome. -/
theorem ends_attempt {backend : Backend} {timeout : Option Nat}
    (h : timeout = none → backend.Returns) (challenge : Challenge) (s : Slots) (claim : Claim) :
    (attempt backend challenge timeout s claim).Ends := by
  cases timeout with
  | some t => exact .intro _
  | none => exact Work.ends_map.2 ((h rfl).ends_work challenge claim)

end ProvenTables.Membership
