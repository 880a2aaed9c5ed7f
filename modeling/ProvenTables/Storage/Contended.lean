import ProvenTables.Storage.Memory
import ProvenTables.Storage.Retry

/-!
# Databases that fail and are shared

A database in memory some of whose reads fail for the moment, and in which another writer acts
between two requests.
-/

namespace ProvenTables

/-- A memory whose reads can fail and whose tables another writer can move. -/
structure Contended where
  memory : Memory
  retry : RetryPolicy
  /-- How many of the next reads fail. -/
  failing : Nat
  reads : Nat
  failed : List Address
  /-- Where another writer moves the table that is looked up next. -/
  rival : Option Address

namespace Contended

/-- Nothing fails and nobody else writes. -/
def calm (memory : Memory) (retry : RetryPolicy) : Contended := ⟨memory, retry, 0, 0, [], none⟩

/-- The reason of a failure that is made on purpose. -/
def reason : String := "injected failure"

/-- One try to read an object, which fails as long as failures are left. -/
def fetchOnce (address : Address) (c : Contended) : Except StorageError String × Contended :=
  let c := { c with reads := c.reads + 1 }
  match c.failing with
  | 0 => (c.memory.objects.fetch address, c)
  | n + 1 =>
    (.error (.transient address (some reason)),
      { c with failing := n, failed := c.failed ++ [address] })

/-- What another writer does to a table: it moves or registers it. -/
def interfere (r : Registry) (table : String) (address : Address) : Registry :=
  match r.pointer? table with
  | some p => (r.change (r.repoint table p.address address)).2
  | none => (r.change (r.create table address)).2

/-- Answers one request; after a lookup the other writer acts, if there is one. -/
def answer : (r : Request) → Contended → r.Answer × Contended
  | .fetch address, c =>
    let (o, c) := c.retry.read (fetchOnce address) c
    (o.result, c)
  | .lookup table, c =>
    (.ok (c.memory.registry.pointer? table),
      match c.rival with
      | some address =>
        let registry := interfere c.memory.registry table address
        { c with memory := { c.memory with registry := registry }, rival := none }
      | none => c)
  | .keep address content, c =>
    let (a, m) := Memory.answer (.keep address content) c.memory
    (a, { c with memory := m })
  | .create table address, c =>
    let (a, m) := Memory.answer (.create table address) c.memory
    (a, { c with memory := m })
  | .repoint table expected new, c =>
    let (a, m) := Memory.answer (.repoint table expected new) c.memory
    (a, { c with memory := m })
  | .list, c =>
    let (a, m) := Memory.answer .list c.memory
    (a, { c with memory := m })

end Contended

end ProvenTables
