import ProvenTables.Storage.Registry

/-!
# Procedures

Work on a database as a tree of atomic requests to its store and its registry. A procedure says what
to do with each answer and nothing about who answers: one process alone, several in turn, or a
medium that fails.
-/

namespace ProvenTables

/-- One atomic step. -/
inductive Request where
  | fetch (address : Address)
  /-- Keeps a content under an address that has none yet. -/
  | keep (address : Address) (content : String)
  | lookup (table : String)
  | create (table : String) (address : Address)
  | repoint (table : String) (expected new : Address)
  | list
  deriving DecidableEq

/-- What a request that succeeds gives. -/
abbrev Request.Result : Request → Type
  | fetch _ => String
  | keep _ _ => Unit
  | lookup _ => Option Pointer
  | create _ _ => Pointer
  | repoint _ _ _ => Pointer
  | list => List Pointer

/-- The answer to a request. -/
abbrev Request.Answer (r : Request) : Type := Except StorageError r.Result

/-- A computation that ends with an outcome, or makes a request and goes on with its answer. -/
inductive Procedure (ε α : Type) where
  | done (outcome : Except ε α)
  | step (request : Request) (next : request.Answer → Procedure ε α)

namespace Procedure

variable {ε ε' α β σ : Type}

/-- Goes on with the result of a procedure that succeeds. -/
def bind : Procedure ε α → (α → Procedure ε β) → Procedure ε β
  | done (.ok a), f => f a
  | done (.error e), _ => done (.error e)
  | step r next, f => step r fun answer => (next answer).bind f

/-- Changes the outcome of a procedure. -/
def mapOutcome (f : Except ε α → Except ε' β) : Procedure ε α → Procedure ε' β
  | done outcome => done (f outcome)
  | step r next => step r fun answer => (next answer).mapOutcome f

/-- Procedures follow one another as long as they succeed. -/
instance : Monad (Procedure ε) where
  pure a := done (.ok a)
  bind := bind

/-- The procedure that takes no step. -/
def ofExcept (outcome : Except ε α) : Procedure ε α := done outcome

/-- The procedure that fails at once. -/
def fail (e : ε) : Procedure ε α := done (.error e)

/-- The procedure with another kind of errors. -/
def mapError (f : ε → ε') (p : Procedure ε α) : Procedure ε' α :=
  p.mapOutcome (Except.mapError f)

/-- The procedure of one request. -/
def request (r : Request) : Procedure StorageError r.Result := step r done

/-- Runs a procedure alone: every request is answered before anything else happens. -/
def run (answer : (r : Request) → σ → r.Answer × σ) : Procedure ε α → σ → Except ε α × σ
  | done outcome, s => (outcome, s)
  | step r next, s =>
    let (a, s) := answer r s
    (next a).run answer s

/-- A procedure that has ended leaves what it runs on as it is. -/
@[simp]
theorem run_done (answer : (r : Request) → σ → r.Answer × σ) (outcome : Except ε α) (s : σ) :
    (done outcome).run answer s = (outcome, s) := rfl

/-- A procedure goes on from the answer to its first request. -/
@[simp]
theorem run_step (answer : (r : Request) → σ → r.Answer × σ) (r : Request)
    (next : r.Answer → Procedure ε α) (s : σ) :
    (step r next).run answer s = (next (answer r s).1).run answer (answer r s).2 := rfl

/-- A procedure run after another starts in the state that the other leaves. -/
theorem run_bind (answer : (r : Request) → σ → r.Answer × σ) (p : Procedure ε α)
    (f : α → Procedure ε β) (s : σ) :
    (p.bind f).run answer s =
      match p.run answer s with
      | (.ok a, s) => (f a).run answer s
      | (.error e, s) => (.error e, s) := by
  induction p generalizing s with
  | done outcome => cases outcome <;> rfl
  | step r next ih => simp only [bind, run_step, ih]

/-- A procedure that is followed by nothing is the procedure. -/
theorem bind_done (p : Procedure ε α) : p.bind (fun a => done (.ok a)) = p := by
  induction p with
  | done outcome => cases outcome <;> rfl
  | step r next ih => simp only [bind, ih]

/-- Three procedures in a row can be put together in either order. -/
theorem bind_assoc {γ : Type} (p : Procedure ε α) (f : α → Procedure ε β) (g : β → Procedure ε γ) :
    (p.bind f).bind g = p.bind fun a => (f a).bind g := by
  induction p with
  | done outcome => cases outcome <;> rfl
  | step r next ih => simp only [bind, ih]

/-- Procedures obey the laws of a monad. -/
instance : LawfulMonad (Procedure ε) :=
  LawfulMonad.mk' (Procedure ε) bind_done (fun _ _ => rfl) bind_assoc

/-- A function applied to the result of a procedure is applied to the result of its run. -/
theorem run_map (answer : (r : Request) → σ → r.Answer × σ) (f : α → β) (p : Procedure ε α) (s : σ) :
    (f <$> p).run answer s = ((p.run answer s).1.map f, (p.run answer s).2) := by
  refine (run_bind answer p (fun a => .done (.ok (f a))) s).trans ?_
  obtain ⟨o, s', hp⟩ : ∃ o s', p.run answer s = (o, s') := ⟨_, _, rfl⟩
  rw [hp]
  cases o <;> rfl

end Procedure

end ProvenTables
