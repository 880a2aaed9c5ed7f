import ProvenTables.Storage.History

/-!
# Databases in memory

Objects by address and a registry. An address once used keeps its content.
-/

namespace ProvenTables

/-- Objects by the text of their addresses. -/
abbrev Objects := SortedMap String

namespace Objects

/-- The content that is kept at an address. -/
def fetch (objects : Objects) (address : Address) : Except StorageError String :=
  match objects.get? address.text with
  | some content => .ok content
  | none => .error (.notFound address)

/-- The objects with a content under an address that has none yet. -/
def keep (objects : Objects) (address : Address) (content : String) : Objects :=
  if objects.contains address.text then objects else objects.insert address.text content

end Objects

/-- The answer of a registry to a change, and the registry after it. -/
def Registry.change (r : Registry) (outcome : Except StorageError (Pointer × Registry)) :
    Except StorageError Pointer × Registry :=
  match outcome with
  | .ok (p, r) => (.ok p, r)
  | .error e => (.error e, r)

/-- Objects and a registry that are kept in memory. -/
structure Memory where
  objects : Objects
  registry : Registry
  deriving DecidableEq

namespace Memory

/-- A memory without objects and tables. -/
def empty : Memory := ⟨.empty, .empty⟩

/-- Without other information a memory is empty. -/
instance : Inhabited Memory := ⟨empty⟩

/-- What a memory answers to a request, and the memory after it. -/
def answer : (r : Request) → Memory → r.Answer × Memory
  | .fetch address, m => (m.objects.fetch address, m)
  | .keep address content, m => (.ok (), { m with objects := m.objects.keep address content })
  | .lookup table, m => (.ok (m.registry.pointer? table), m)
  | .create table address, m =>
    let (a, r) := m.registry.change (m.registry.create table address)
    (a, { m with registry := r })
  | .repoint table expected new, m =>
    let (a, r) := m.registry.change (m.registry.repoint table expected new)
    (a, { m with registry := r })
  | .list, m => (.ok m.registry.list, m)

end Memory

end ProvenTables
