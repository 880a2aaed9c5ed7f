import ProvenTables.Proofs.Database.Safety
import ProvenTables.Proofs.Digest.Evaluation

/-!
# Refinement

Operations that are run one after the other on an empty memory show the outcomes of a reference
database that keeps every table as one value, and loading a table gives the table of the reference
database.
-/

namespace ProvenTables

namespace Database

open Storage
open Procedure (reading? run_of_reading?)

/-! ## Runs -/

/-- Runs an operation alone. -/
def Operation.run (op : Operation) (m : Memory) : Except DatabaseError Response × Memory :=
  op.procedure.run Memory.answer m

/-- The memory after operations on an empty one. -/
def memoryAfter (ops : List Operation) : Memory := ops.foldl (fun m op => (op.run m).2) .empty

/-- The contents that operations keep. -/
def writtenFrom : Memory → List Operation → List String
  | _, [] => []
  | m, op :: ops => op.procedure.kept m ++ writtenFrom (op.run m).2 ops

/-- The contents that operations on an empty memory keep. -/
def written (ops : List Operation) : List String := writtenFrom .empty ops

/-- What loading a table gives. -/
def load (m : Memory) (name : String) : Except DatabaseError Table :=
  ((loadTable name).run Memory.answer m).1.map Prod.snd

namespace Keeping

variable {α : Type}

/-- The database after an effect, which is the same if the effect fails. -/
def step (k : Keeping α) (db : SortedMap α) (e : Effect) : SortedMap α :=
  match k.perform db e with
  | .ok r => r.2
  | .error _ => db

/-- The database after operations on an empty one. -/
def state (k : Keeping α) (ops : List Operation) : SortedMap α :=
  ops.foldl (fun db op => k.step db op.effect) .empty

/-- Only the change of an effect matters for the database after it. -/
lemma step_eq (k : Keeping α) (db : SortedMap α) (e : Effect) :
    k.step db e = match e.change? with
      | some c => k.apply db c
      | none => db := by
  cases e with
  | fail e => rfl
  | change c seen =>
    simp only [step, perform, Effect.change?, apply]
    cases k.change db c <;> rfl
  | query name answer =>
    simp only [step, perform, Effect.change?]
    cases k.find db name with
    | error e => rfl
    | ok t =>
      simp only [bind, Except.bind]
      cases answer t <;> rfl
  | pointer name =>
    simp only [step, perform, Effect.change?]
    split <;> rename_i h <;> split at h <;> cases h <;> rfl
  | list => rfl

end Keeping

/-- The last operation is run on the memory after the others. -/
lemma memoryAfter_append (ops : List Operation) (op : Operation) :
    memoryAfter (ops ++ [op]) = (op.run (memoryAfter ops)).2 := by
  rw [memoryAfter, List.foldl_append]
  rfl

/-- An operation adds objects at most. -/
lemma grows_memoryAfter (ops : List Operation) (op : Operation) :
    (memoryAfter ops).objects.Grows (memoryAfter (ops ++ [op])).objects := by
  rw [memoryAfter_append]
  exact Procedure.grows_run _ _

/-- The last operation has its effect on the database after the others. -/
lemma state_append {α : Type} (k : Keeping α) (ops : List Operation) (op : Operation) :
    k.state (ops ++ [op]) = k.step (k.state ops) op.effect := by
  rw [Keeping.state, List.foldl_append]
  rfl

/-- What holds of the empty database and is kept by the changes of operations holds after them. -/
lemma Keeping.state_induction_of {α : Type} {k : Keeping α} {P : SortedMap α → Prop}
    {Q : Change → Prop} {ops : List Operation}
    (hops : ∀ op ∈ ops, ∀ c seen, op.effect = .change c seen → Q c) (hempty : P .empty)
    (hchange : ∀ db db' c, P db → Q c → k.change db c = .ok db' → P db') : P (k.state ops) := by
  induction ops using List.reverseRecOn with
  | nil => exact hempty
  | append_singleton ops op ih =>
    have hstate := ih fun o ho => hops o (List.mem_append_left _ ho)
    rw [state_append, Keeping.step_eq]
    cases he : op.effect with
    | change c seen =>
      simp only [Effect.change?, Keeping.apply]
      cases hc : k.change (k.state ops) c with
      | ok db => exact hchange _ db c hstate (hops op (by simp) c seen he) hc
      | error err => exact hstate
    | _ => exact hstate

/-- What holds of the empty database and is kept by sound changes holds after operations. -/
lemma Keeping.state_induction {α : Type} {k : Keeping α} {P : SortedMap α → Prop} (hempty : P .empty)
    (hchange : ∀ db db' c, P db → c.IsSound → k.change db c = .ok db' → P db')
    (ops : List Operation) : P (k.state ops) :=
  Keeping.state_induction_of (fun _ _ _ _ he => isSound_effect he) hempty hchange

/-- The last operation writes after the others. -/
lemma written_append (ops : List Operation) (op : Operation) :
    written (ops ++ [op]) = written ops ++ op.procedure.kept (memoryAfter ops) := by
  have hfrom : ∀ m, writtenFrom m (ops ++ [op]) =
      writtenFrom m ops ++ op.procedure.kept (ops.foldl (fun m op => (op.run m).2) m) := by
    induction ops with
    | nil => exact fun m => by simp [writtenFrom]
    | cons o ops ih => exact fun m => by simp [writtenFrom, ih]
  exact hfrom .empty

/-- Fewer operations have written no more. -/
lemma written_subset {before ops : List Operation} (h : before <+: ops) :
    written before ⊆ written ops := by
  obtain ⟨later, rfl⟩ := h
  induction later using List.reverseRecOn with
  | nil => rw [List.append_nil]; exact List.Subset.refl _
  | append_singleton later op ih =>
    rw [← List.append_assoc, written_append]
    exact fun c hc => List.mem_append_left _ (ih hc)

/-! ## Running a safe procedure -/

variable {contents : List String} {w : World}

/-- A safe procedure that is run alone makes its change after the changes before it, or leaves a
valid world with the same changes. -/
theorem run_of_safe {ε α : Type} {committed : List Change → Memory → Except ε α → Prop}
    {post : World → Except ε α → Prop} {p : Procedure ε α} (hvalid : w.IsValid contents)
    (h : Safe contents committed post p w) (hkept : ∀ c ∈ p.kept w.memory, c ∈ contents) :
    committed w.applied (p.run Memory.answer w.memory).2 (p.run Memory.answer w.memory).1 ∨
      World.IsValid contents ⟨(p.run Memory.answer w.memory).2, w.applied⟩ ∧
        post ⟨(p.run Memory.answer w.memory).2, w.applied⟩ (p.run Memory.answer w.memory).1 := by
  induction p generalizing w with
  | done o => exact .inr ⟨hvalid, h w (.refl w) hvalid⟩
  | step r next ih =>
    have hstep := h w (.refl w) hvalid fun c hc => hkept c (List.mem_append_left _ hc)
    rw [Procedure.run_step]
    split at hstep
    · -- the request that makes the change is the last one
      obtain ⟨o, hdone, hcommitted⟩ := hstep
      rw [hdone]
      exact .inl hcommitted
    · refine ih _ hstep.1 hstep.2 fun c hc => hkept c (List.mem_append_right _ hc)

/-- Finding a registration leaves the memory. -/
lemma run_pointer (m : Memory) (name : String) :
    (pointer name).run Memory.answer m =
      ((m.registry.pointer? name).elim (.error (.unknownTable name)) .ok, m) := by
  change Procedure.run Memory.answer (Procedure.bind (request (.lookup name)) _) m = _
  have hlookup : (request (.lookup name) : Procedure DatabaseError (Option Pointer)).run
      Memory.answer m = (.ok (m.registry.pointer? name), m) := rfl
  rw [Procedure.run_bind, hlookup]
  cases m.registry.pointer? name <;> rfl

/-- A table that is not registered is not loaded. -/
lemma run_loadTable_of_none {m : Memory} {name : String} (hp : m.registry.pointer? name = none) :
    (loadTable name).run Memory.answer m = (.error (.unknownTable name), m) := by
  change Procedure.run Memory.answer (Procedure.bind (pointer name) _) m = _
  rw [Procedure.run_bind, run_pointer, hp]
  rfl

/-- Loading a table that is registered. -/
lemma run_loadTable {m : Memory} {name : String} {p : Pointer} {t : Except StorageError Table}
    (hp : m.registry.pointer? name = some p)
    (ht : (replay p.table p.address).reading? m.objects = some t) :
    (loadTable name).run Memory.answer m = ((t.mapError .storage).map fun t => (p, t), m) := by
  change Procedure.run Memory.answer (Procedure.bind (pointer name) _) m = _
  rw [Procedure.run_bind, run_pointer, hp]
  refine run_of_reading? ((Procedure.reading?_bind _ _ _).trans ?_)
  rw [Procedure.reading?_mapError, ht]
  cases t <;> rfl

/-- Loading gives what is stored. -/
lemma load_of_isValid (hvalid : w.IsValid contents) (name : String) :
    load w.memory name = Keeping.stored.find (storedAfter w.applied) name := by
  rcases hvalid.registered name with ⟨hget, hnone⟩ | ⟨t, p, hget, hp, hname, hreplay⟩
  · rw [load, run_loadTable_of_none hnone, Keeping.find, hget]
    rfl
  · rw [load, run_loadTable hp (hname ▸ hreplay), Keeping.find, hget]
    cases t <;> rfl

/-! ## Stored tables -/

/-- An effect that fails leaves the database as it is. -/
lemma step_of_error {db : SortedMap (Except StorageError Table)} {e : Effect} {err : DatabaseError}
    (h : Keeping.stored.observe db e = .error err) : Keeping.stored.step db e = db := by
  rw [Keeping.step]
  cases hp : Keeping.stored.perform db e with
  | error err => rfl
  | ok r =>
    rw [Keeping.observe, hp] at h
    cases h

/-- The change of an effect comes after those before it. -/
lemma step_of_change {α : Type} {k : Keeping α} {cs : List Change} {e : Effect} {c : Change}
    (hc : e.change? = some c) : k.step (k.after cs) e = k.after (cs ++ [c]) := by
  rw [Keeping.after_append, Keeping.step_eq, hc]

/-- What an operation shows and does in a valid world. -/
lemma run_operation {op : Operation} (hvalid : w.IsValid contents) (hno : NoCollision contents)
    (hkept : ∀ c ∈ op.procedure.kept w.memory, c ∈ contents) :
    observe (op.run w.memory).1 = Keeping.stored.observe (storedAfter w.applied) op.effect ∧
      ∃ cs, World.IsValid contents ⟨(op.run w.memory).2, cs⟩ ∧
        storedAfter cs = Keeping.stored.step (storedAfter w.applied) op.effect := by
  rcases run_of_safe hvalid ((implements_effect op).safe hno w) hkept with
    ⟨c, hc, hworld, -, hseen⟩ | ⟨hworld, hfinished⟩
  · exact ⟨hseen, _, hworld, (step_of_change hc).symm⟩
  · rcases hfinished with ⟨cs, hfrom, hto, hseen, herror⟩ | ⟨-, -, hne⟩
    · -- nothing else has happened, so the moment is the start
      obtain rfl : cs = w.applied := hto.eq_of_length_le hfrom.length_le
      refine ⟨hseen, _, hworld, Eq.symm ?_⟩
      -- an operation that has made no change leaves the reference database, too
      cases hchange : op.effect.change? with
      | none => rw [Keeping.step_eq, hchange]
      | some c =>
        obtain ⟨err, herr⟩ := herror (by rw [hchange]; rfl)
        have hobserve : Keeping.stored.observe (storedAfter w.applied) op.effect = .error err := by
          rw [← hseen, herr]
          rfl
        exact step_of_error hobserve
    · -- nobody else is there to conflict with
      exact absurd rfl hne

/-- Operations that are run one after the other lead to what they make of stored tables. -/
lemma exists_isValid (hno : NoCollision contents) {ops : List Operation}
    (hsub : written ops ⊆ contents) :
    ∃ cs, World.IsValid contents ⟨memoryAfter ops, cs⟩ ∧
      storedAfter cs = Keeping.stored.state ops := by
  induction ops using List.reverseRecOn with
  | nil =>
    refine ⟨[], ⟨fun k c hk => ?_, fun name => ?_⟩, rfl⟩
    · cases hk
    · exact (rfl : Memory.empty.registry.pointer? name = none)
  | append_singleton ops op ih =>
    rw [written_append, List.append_subset] at hsub
    obtain ⟨cs, hvalid, hcs⟩ := ih hsub.1
    obtain ⟨-, ds, hvalid', hds⟩ := run_operation hvalid hno fun c hc => hsub.2 hc
    refine ⟨ds, ?_, ?_⟩
    · rw [memoryAfter_append]
      exact hvalid'
    · rw [hds, hcs, state_append]

/-- What operations show, and what loading gives after them, goes through the encoding. -/
theorem refines_stored {ops : List Operation} (hno : NoCollision (written ops)) :
    (∀ before op, before ++ [op] <+: ops → observe (op.run (memoryAfter before)).1 =
        Keeping.stored.observe (Keeping.stored.state before) op.effect) ∧
      ∀ before, before <+: ops → ∀ name,
        load (memoryAfter before) name = Keeping.stored.find (Keeping.stored.state before) name := by
  refine ⟨fun before op hprefix => ?_, fun before hprefix name => ?_⟩
  · have hwritten := written_subset hprefix
    rw [written_append, List.append_subset] at hwritten
    obtain ⟨cs, hvalid, hcs⟩ := exists_isValid hno hwritten.1
    rw [← hcs]
    exact (run_operation hvalid hno fun c hc => hwritten.2 hc).1
  · obtain ⟨cs, hvalid, hcs⟩ := exists_isValid hno (written_subset hprefix)
    rw [← hcs]
    exact load_of_isValid hvalid name

/-! ## Creating a table -/

/-- What creating a table in an empty memory writes. -/
def createdContents (name : String) (t : Table) : List String :=
  let payload := Payload.ofTable t
  let chunk := (Chunk.single name payload).toJson
  let digest := (Address.ofJson payload.toJson).text
  [chunk.canonical, (History.empty.record (Address.ofJson chunk) digest).toJson.canonical]

/-- Creating a table in an empty memory keeps its chunk and its history. -/
lemma kept_creating {name : String} {t : Table} {f : Written → Procedure DatabaseError Response}
    (hf : ∀ x m, (f x).kept m = []) :
    (creating name (.ok t) >>= f).kept .empty = createdContents name t := by
  change _ ++ (_ ++ (_ ++ (_ ++ (f _).kept _))) = _
  rw [hf]
  rfl

/-- The two contents of a new table have different addresses if the digest of the history, which is
given by those of the chunk and the payload, is not the one of the chunk. -/
lemma noCollision_createdContents {name : String} {t : Table} (chunk : Address) (digest : String)
    (hchunk : Address.ofJson (Chunk.single name (.ofTable t)).toJson = chunk)
    (hdigest : (Address.ofJson (Payload.ofTable t).toJson).text = digest)
    (hhistory : Address.ofJson (History.empty.record chunk digest).toJson ≠ chunk) :
    NoCollision (createdContents name t) := by
  subst hchunk hdigest
  intro c hc d hd heq
  simp only [createdContents, List.mem_cons, List.not_mem_nil, or_false] at hc hd
  rcases hc with rfl | rfl <;> rcases hd with rfl | rfl
  · rfl
  · exact absurd heq.symm hhistory
  · exact absurd heq hhistory
  · rfl

/-- The addresses of the two contents of a new table, of which that of the history is given by those of the
chunk and the payload. -/
lemma addresses_createdContents {name : String} {t : Table} {chunk history : Address} (digest : String)
    (hchunk : Address.ofJson (Chunk.single name (.ofTable t)).toJson = chunk)
    (hdigest : (Address.ofJson (Payload.ofTable t).toJson).text = digest)
    (hhistory : Address.ofJson (History.empty.record chunk digest).toJson = history) :
    (createdContents name t).map Address.ofText = [chunk, history] := by
  subst hchunk hdigest hhistory
  rfl

/-- Creates a table without rows. -/
def createNotes : Operation := .execute none "CREATE TABLE notes (line TEXT)"

/-- A table of lines without rows. -/
def notes : Table := ⟨"notes", [⟨"line", .string⟩], [], .empty⟩

/-- The definition of the table is parsed. -/
lemma parse_createNotes : Sql.parse "CREATE TABLE notes (line TEXT)" =
    .ok (.createTable ⟨"notes", [⟨"line", .string⟩]⟩) := by decide

/-- The effect of the definition. -/
lemma effect_createNotes :
    createNotes.effect = .change (.create "notes" (.ok notes)) changedAnswer := by
  simp only [createNotes, Operation.effect, parse_createNotes]
  rfl

/-- What the definition writes has these addresses. -/
lemma addresses_notes : (createdContents "notes" notes).map Address.ofText =
    [⟨"afd26ac308c2cde7474a5d7da2e27d77a72781e9b779d2e186fc93f099d0868d"⟩,
      ⟨"9f9afe0c3d387ea5c1bc659b7907155b518f79d01c46c3020c7f872fa25d4c7f"⟩] := by
  refine addresses_createdContents
    "cd2d1d0c186b7594ed701999659ced71de9f89c2b866bdaaadf7f17305da3ea5" ?_ ?_ ?_ <;>
    rw [Address.ofJson_eq]
  · decide +kernel
  · decide +kernel
  · decide +kernel

/-- What the definition writes does not collide. -/
lemma noCollision_notes : NoCollision (createdContents "notes" notes) := by
  refine noCollision_of_nodup ?_
  rw [addresses_notes]
  decide

/-- The definition is run by creating the table. -/
lemma procedure_createNotes : createNotes.procedure =
    creating "notes" (.ok notes) >>= fun w => .ofExcept (.ok (.reply (changed w.commit none))) := by
  refine Eq.trans ?_ (createTable_eq none ⟨"notes", [⟨"line", .string⟩]⟩)
  simp only [createNotes, Operation.procedure, execute, parse_createNotes]
  rfl

end Database

end ProvenTables
