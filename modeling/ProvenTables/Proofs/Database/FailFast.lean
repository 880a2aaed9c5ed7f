import ProvenTables.Proofs.Database.Composed

/-!
# Failing requests

Nothing goes on after a failure: a request that is answered with an error, whatever the error, is the
last one of its operation, and the operation returns an error.
-/

namespace ProvenTables

namespace Procedure

variable {ε ε' α β : Type}

/-- Every error that a request is answered with ends the procedure with an error. -/
def FailsFast : Procedure ε α → Prop
  | done _ => True
  | step _ next => (∀ e, ∃ e', next (.error e) = done (.error e')) ∧ ∀ a, (next a).FailsFast

/-- A request fails with its answer. -/
lemma failsFast_request (r : Request) : (request r).FailsFast :=
  ⟨fun e => ⟨e, rfl⟩, fun _ => trivial⟩

/-- Two procedures in a row fail as soon as one does. -/
lemma FailsFast.bind {p : Procedure ε α} {f : α → Procedure ε β} (hp : p.FailsFast)
    (hf : ∀ a, (f a).FailsFast) : (p >>= f).FailsFast := by
  change (p.bind f).FailsFast
  induction p with
  | done o =>
    cases o with
    | ok a => exact hf a
    | error e => trivial
  | step r next ih =>
    obtain ⟨herror, hnext⟩ := hp
    refine ⟨fun e => ?_, fun a => ih a (hnext a)⟩
    obtain ⟨e', he'⟩ := herror e
    exact ⟨e', congrArg (fun q => q.bind f) he'⟩

/-- A function on the errors changes nothing about when a procedure fails. -/
lemma FailsFast.mapError {g : ε → ε'} {p : Procedure ε α} (hp : p.FailsFast) :
    (p.mapError g).FailsFast := by
  change (p.mapOutcome (Except.mapError g)).FailsFast
  induction p with
  | done o => trivial
  | step r next ih =>
    obtain ⟨herror, hnext⟩ := hp
    refine ⟨fun e => ?_, fun a => ih a (hnext a)⟩
    obtain ⟨e', he'⟩ := herror e
    exact ⟨g e', congrArg (mapOutcome (Except.mapError g)) he'⟩

/-- A procedure ends with the error of any of the requests that it is composed of. -/
theorem IsComposed.failsFast {p : Procedure ε α} (h : p.IsComposed) : p.FailsFast := by
  induction h with
  | done o => trivial
  | request r _ => exact failsFast_request r
  | bind _ _ hp hf => exact hp.bind hf
  | mapError _ hp => exact hp.mapError

end Procedure

/-- An operation one of whose requests fails returns an error. -/
theorem Database.failsFast_operation (op : Operation) : op.procedure.FailsFast :=
  (isComposed_operation op).failsFast

end ProvenTables
