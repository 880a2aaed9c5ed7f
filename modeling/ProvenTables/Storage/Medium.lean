import ProvenTables.Storage.Contended
import ProvenTables.Storage.Directory

/-!
# Media

The places in which a database is kept: the memory of a process, a directory, or a memory that is
shared and fails.
-/

namespace ProvenTables

/-- The kinds of places that a database can be kept in. -/
inductive Medium where
  | memory (m : Memory)
  | directory (d : Directory)
  | contended (c : Contended)

namespace Medium

/-- What a medium answers to a request, and the medium after it. -/
def answer (r : Request) : Medium → r.Answer × Medium
  | memory m =>
    let (a, m) := Memory.answer r m
    (a, memory m)
  | directory d =>
    let (a, d) := Directory.answer r d
    (a, directory d)
  | contended c =>
    let (a, c) := Contended.answer r c
    (a, contended c)

end Medium

/-- Runs a procedure alone on a medium. -/
def Procedure.runOn {ε α : Type} (p : Procedure ε α) (m : Medium) : Except ε α × Medium :=
  p.run Medium.answer m

end ProvenTables
