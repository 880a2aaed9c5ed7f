import ProvenTables.Storage.Procedure
import ProvenTables.Storage.Retry

/-!
# Reads that are tried again

Whatever answers the requests of a database, its reads can be tried again with a policy. Every other
request is made once, and its answer is passed on.
-/

namespace ProvenTables

/-- How requests are answered in a state, and the state after that. -/
abbrev Answering (σ : Type) : Type := (r : Request) → σ → r.Answer × σ

namespace Answering

variable {σ : Type}

/-- Reads are tried again by a policy, and every other request is made once. -/
def retrying (policy : RetryPolicy) (inner : Answering σ) : Answering σ
  | .fetch address, s =>
    let (o, s) := policy.read (inner (.fetch address)) s
    (o.result, s)
  | .keep address content, s => inner (.keep address content) s
  | .lookup table, s => inner (.lookup table) s
  | .create table address, s => inner (.create table address) s
  | .repoint table expected new, s => inner (.repoint table expected new) s
  | .list, s => inner .list s

/-- The requests are answered in the same way, and they are written down. -/
def logged (inner : Answering σ) : Answering (σ × List Request) := fun r (s, log) =>
  let (a, s) := inner r s
  (a, s, log ++ [r])

end Answering

end ProvenTables
