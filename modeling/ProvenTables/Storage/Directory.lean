import ProvenTables.Storage.Memory
import ProvenTables.Storage.Retry

/-!
# Databases in a directory

An object is a file named after its address, and the registry is one file that is written anew with
every change. A process keeps the registry it has read; opening the directory again reads the file.
-/

namespace ProvenTables

/-- What a name in the directory of objects stands for. -/
inductive DiskEntry where
  | file (content : String)
  | folder
  deriving DecidableEq

/-- A data directory: the entries of its directory of objects and the text of its registry file. -/
structure Disk where
  objects : SortedMap DiskEntry
  registry : Option String
  deriving DecidableEq

namespace Disk

/-- A disk without objects and without a registry. -/
def empty : Disk := ⟨.empty, none⟩

/-- The name of the folder of the objects. -/
def objectsName : String := "objects"

/-- The name of the file of the registry. -/
def registryName : String := "registry.json"

/-- The name of the file of an object. -/
def fileName (address : Address) : String := address.text ++ ".json"

/-- The content of the file of an address, if the address is one of a content and the file is there. -/
def fetch (d : Disk) (address : Address) : Except StorageError String :=
  if !address.isDigest then .error (.notFound address)
  else
    match d.objects.get? (fileName address) with
    | some (.file content) => .ok content
    | some .folder => .error (.transient address none)
    | none => .error (.notFound address)

/-- Writes an object's file if there is none. -/
def keep (d : Disk) (address : Address) (content : String) : Except StorageError Unit × Disk :=
  if !address.isDigest then (.error (.data (.notDigest address)), d)
  else if d.objects.contains (fileName address) then (.ok (), d)
  else (.ok (), { d with objects := d.objects.insert (fileName address) (.file content) })

/-- Puts a directory where an object's file would be. -/
def block (d : Disk) (address : Address) : Disk :=
  { d with objects := d.objects.insert (fileName address) .folder }

/-- The registry of the directory: empty if it has no file. -/
def openRegistry (d : Disk) : Except StorageError Registry :=
  match d.registry with
  | some content => Registry.read content
  | none => .ok .empty

end Disk

/-- A process that has a data directory open. -/
structure Directory where
  disk : Disk
  registry : Registry
  retry : RetryPolicy

namespace Directory

/-- A directory opens with the registry of its disk, if that can be read. -/
def mount (disk : Disk) (retry : RetryPolicy) : Except StorageError Directory := do
  return ⟨disk, ← disk.openRegistry, retry⟩

/-- Writes the registry that a change leaves behind. -/
def change (d : Directory) (outcome : Except StorageError (Pointer × Registry)) :
    Except StorageError Pointer × Directory :=
  match outcome with
  | .ok (p, r) =>
    (.ok p, { d with registry := r, disk := { d.disk with registry := some r.render } })
  | .error e => (.error e, d)

/-- What a directory answers to a request; reads are tried again, and the registry is written through. -/
def answer : (r : Request) → Directory → r.Answer × Directory
  | .fetch address, d =>
    ((d.retry.read (fun disk => (disk.fetch address, disk)) d.disk).1.result, d)
  | .keep address content, d =>
    let (a, disk) := d.disk.keep address content
    (a, { d with disk := disk })
  | .lookup table, d => (.ok (d.registry.pointer? table), d)
  | .create table address, d => d.change (d.registry.create table address)
  | .repoint table expected new, d => d.change (d.registry.repoint table expected new)
  | .list, d => (.ok d.registry.list, d)

end Directory

end ProvenTables
