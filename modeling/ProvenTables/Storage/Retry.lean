import ProvenTables.Duration
import ProvenTables.Storage.Error

/-!
# Retries

A read that fails for the moment is tried again, a bounded number of times and after waiting longer
each time.
-/

namespace ProvenTables

/-- How often and how soon a read is tried again; times are in nanoseconds. -/
structure RetryPolicy where
  initial : Nat
  longest : Nat
  attempts : Nat
  deriving DecidableEq

namespace RetryPolicy

/-- The policy with waits that are given in milliseconds. -/
def ofMillis (initial longest attempts : Nat) : RetryPolicy :=
  ⟨initial * 10 ^ 6, longest * 10 ^ 6, attempts⟩

/-- The greatest factor by which the first wait grows. -/
def greatestFactor : Nat := 2 ^ 32 - 1

/-- The wait after the attempt with the given number, counted from zero. -/
def backoff (p : RetryPolicy) (attempt : Nat) : Nat :=
  min (p.initial * if attempt < 32 then 2 ^ attempt else greatestFactor) p.longest

/-! ## Durations -/

/-- The policy of durations and a number of attempts. -/
def ofDurations (initial longest : Duration) (attempts : UInt32) : RetryPolicy :=
  ⟨initial.toNanos, longest.toNanos, attempts.toNat⟩

/-- The power of two with an exponent, or the last number of 32 bits if the power has more. -/
def factor (attempt : UInt32) : UInt32 := if attempt < 32 then 1 <<< attempt else 0xffffffff

/-- The wait after an attempt as a duration. A multiple that does not fit is not the shorter one. -/
def wait (initial longest : Duration) (attempt : UInt32) : Duration :=
  match initial.times? (factor attempt) with
  | some d => d.shorter longest
  | none => longest

/-! ## Reads -/

/-- What came of a read: the last outcome, and the waits between the attempts. -/
structure Outcome (α : Type) where
  result : Except StorageError α
  waits : List Nat

variable {α σ : Type}

/-- Reads, and up to `more` times again, starting with the wait after the given attempt. -/
def readFrom (p : RetryPolicy) (read : σ → Except StorageError α × σ) :
    (more attempt : Nat) → σ → Outcome α × σ
  | 0, _, s =>
    let (result, s) := read s
    (⟨result, []⟩, s)
  | more + 1, attempt, s =>
    match read s with
    | (.error e, s) =>
      if e.isTransient then
        let (o, s) := p.readFrom read more (attempt + 1) s
        ({ o with waits := p.backoff attempt :: o.waits }, s)
      else (⟨.error e, []⟩, s)
    | (.ok a, s) => (⟨.ok a, []⟩, s)

/-- Reads at least once and at most as often as the policy allows. -/
def read (p : RetryPolicy) (read : σ → Except StorageError α × σ) (s : σ) : Outcome α × σ :=
  p.readFrom read (p.attempts - 1) 0 s

end RetryPolicy

end ProvenTables
