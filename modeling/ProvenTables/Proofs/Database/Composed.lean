import ProvenTables.Proofs.Database.Guarded

/-!
# What operations are composed of

The procedure of every operation is put together from outcomes and single requests by going on with
results and by renaming errors. What these keep thus holds of every operation, by induction over how its
procedure is put together and without another look at the procedure itself.
-/

namespace ProvenTables

/-- Procedures that are put together from single requests, each of which keeps what it keeps under its
own address. -/
inductive Procedure.IsComposed : {ε α : Type} → Procedure ε α → Prop
  | done {ε α : Type} (o : Except ε α) : (Procedure.done o).IsComposed
  | request (r : Request) (hr : r.IsOwn) : (Procedure.request r).IsComposed
  | bind {ε α β : Type} {p : Procedure ε α} {f : α → Procedure ε β} (hp : p.IsComposed)
      (hf : ∀ a, (f a).IsComposed) : (p >>= f).IsComposed
  | mapError {ε ε' α : Type} {g : ε → ε'} {p : Procedure ε α} (hp : p.IsComposed) :
      (p.mapError g).IsComposed

open Procedure (IsComposed)

namespace Storage

/-- Putting a document is composed of its request. -/
lemma isComposed_put (v : Json) : (put v).IsComposed :=
  (IsComposed.request (.keep (Address.ofJson v) v.canonical) rfl).bind fun _ => .done _

/-- Reading a document is composed of its request. -/
lemma isComposed_get (a : Address) : (get a).IsComposed := by
  refine (IsComposed.request (.fetch a) trivial).bind fun content => ?_
  split <;> exact .done _

/-- Loading a history is composed of reading its document. -/
lemma isComposed_loadHistory (a : Address) : (loadHistory a).IsComposed := by
  rw [loadHistory]
  split
  · exact .done _
  · refine (isComposed_get a).bind fun v => ?_
    split <;> exact .done _

/-- Replaying entries is composed of reading their chunks. -/
lemma isComposed_replayEntries (table : String) (t : Option Table) (es : List HistoryEntry) :
    (replayEntries table t es).IsComposed := by
  induction es generalizing t with
  | nil => exact .done _
  | cons e es ih =>
    exact (isComposed_get e.chunk).bind fun v => (IsComposed.done _).mapError.bind fun t => ih t

/-- A replay is composed of loading its history and replaying its entries. -/
lemma isComposed_replay (table : String) (a : Address) : (replay table a).IsComposed := by
  refine (isComposed_loadHistory a).bind fun h => (isComposed_replayEntries _ _ _).bind fun t => ?_
  split <;> exact .done _

/-- Appending a chunk is composed of loading the history and of putting both. -/
lemma isComposed_append (table : String) (payload : Payload) (previous : Address) :
    (append table payload previous).IsComposed :=
  (isComposed_loadHistory previous).bind fun _ => (isComposed_put _).bind fun _ =>
    (isComposed_put _).bind fun _ => .done _

/-- A commit is composed of loading the history and of putting the chunk and the new history. -/
lemma isComposed_commit (table : String) (previous : Address) (payload : Payload) :
    (commit table previous payload).IsComposed :=
  (isComposed_append table payload previous).bind fun _ => .done _

end Storage

namespace Database

open Storage

/-- A request is composed of itself, if it keeps contents under their own addresses. -/
lemma isComposed_request (r : Request) (hr : r.IsOwn) : (request r).IsComposed :=
  (IsComposed.request r hr).mapError

/-- Looking a registration up is composed of its request. -/
lemma isComposed_pointer (table : String) : (pointer table).IsComposed := by
  refine (isComposed_request (.lookup table) trivial).bind fun p => ?_
  split <;> exact .done _

/-- Loading a table is composed of the lookup and the replay. -/
lemma isComposed_loadTable (table : String) : (loadTable table).IsComposed :=
  (isComposed_pointer table).bind fun _ => (isComposed_replay _ _).mapError.bind fun _ => .done _

/-- Creating a table is composed of the lookup, the commit and the registration. -/
lemma isComposed_creating (name : String) (table : Except DatabaseError Table) :
    (creating name table).IsComposed := by
  refine (isComposed_request (.lookup name) trivial).bind fun found => ?_
  split
  · exact .done _
  · exact (IsComposed.done table).bind fun t => (isComposed_commit _ _ _).mapError.bind fun c =>
      (isComposed_request (.create name c.history) trivial).bind fun p => .done _

/-- Altering a table is composed of loading it, the commit and the move of its registration. -/
lemma isComposed_altering (key : Pointer → String) (name : String)
    (addition : Table → Except DatabaseError Addition) : (altering key name addition).IsComposed :=
  (isComposed_loadTable name).bind fun x => (IsComposed.done (addition x.2)).bind fun _ =>
    (isComposed_commit _ _ _).mapError.bind fun c =>
      (isComposed_request (.repoint (key x.1) x.1.address c.history) trivial).bind fun _ => .done _

/-- Querying a table is composed of loading it. -/
lemma isComposed_querying {α : Type} (name : String) (answer : Table → Except DatabaseError α) :
    (querying name answer).IsComposed :=
  (isComposed_loadTable name).bind fun x => (IsComposed.done (answer x.2)).bind fun _ => .done _

/-- What implements an effect is composed. -/
lemma Implements.isComposed {p : Procedure DatabaseError Response} {e : Effect}
    (h : Implements p e) : p.IsComposed := by
  cases h with
  | fail e => exact .done _
  | create _ => exact (isComposed_creating _ _).bind fun _ => .done _
  | alter _ _ => exact (isComposed_altering _ _ _).bind fun _ => .done _
  | query _ => exact (isComposed_querying _ _).bind fun _ => .done _
  | pointer name => exact (isComposed_pointer name).bind fun _ => .done _
  | list => exact (isComposed_request .list trivial).bind fun _ => .done _

/-- The procedure of every operation is composed of single requests. -/
theorem isComposed_operation (op : Operation) : op.procedure.IsComposed :=
  (implements_effect op).isComposed

end Database

end ProvenTables
