import ProvenTables.Proofs.Database.Refinement
import ProvenTables.Proofs.Storage.Closed

/-!
# Frames of operations

An operation that fails leaves the memory as it is, and one that succeeds leaves every table but its
own. The error of a row that does not fit its table, which would come after the table is moved, does
not occur. Nothing is assumed of addresses: the store stays closed, so that every table can be read,
with whatever outcome, and reads the same when the store grows.
-/

namespace ProvenTables

/-- Whether an error is that of a converted row that does not fit its table. -/
def DatabaseError.IsInternal : DatabaseError → Prop
  | internal _ => True
  | _ => False

/-- The store is closed, and every table is registered under its name at an address of it. -/
structure Memory.IsClosed (m : Memory) : Prop where
  objects : m.objects.IsClosed
  registered : ∀ name p, m.registry.pointer? name = some p → p.table = name ∧ m.objects.Has p.address

namespace Database

open Storage
open Procedure (run_bind_ok run_bind_error)

/-! ## Errors -/

/-- No failure of the effect itself is internal. -/
def Effect.IsRegular : Effect → Prop
  | fail e => ¬e.IsInternal
  | change (.create _ table) _ => ∀ e, table = .error e → ¬e.IsInternal
  | change (.alter _ addition) _ => ∀ t e, addition t = .error e → ¬e.IsInternal
  | query _ answer => ∀ t e, answer t = .error e → ¬e.IsInternal
  | pointer _ => True
  | list => True

/-- Errors that are wrapped as errors of another kind are not internal. -/
lemma not_isInternal_of_mapError {ε α : Type} {f : ε → DatabaseError} {o : Except ε α}
    {e : DatabaseError} (hf : ∀ e, ¬(f e).IsInternal) (h : o.mapError f = .error e) :
    ¬e.IsInternal := by
  cases o with
  | ok a => cases h
  | error e =>
    cases h
    exact hf e

/-- A function on the result makes no error internal. -/
lemma not_isInternal_of_map {α β : Type} {f : α → β} {o : Except DatabaseError α}
    {e : DatabaseError} (ho : ∀ e, o = .error e → ¬e.IsInternal) (h : f <$> o = .error e) :
    ¬e.IsInternal := by
  cases o with
  | ok a => cases h
  | error e =>
    cases h
    exact ho e rfl

/-- An insertion does not fail with an internal error. -/
lemma not_isInternal_newRows {t : Table} {s : Sql.Insert} {e : DatabaseError}
    (h : newRows t s = .error e) : ¬e.IsInternal := by
  simp only [newRows] at h
  split at h
  · cases h
    exact id
  · obtain ⟨literals, -, hrow⟩ := exists_mem_of_mapM_error h
    simp only [convertRow] at hrow
    split at hrow
    · cases hrow
      exact id
    · exact not_isInternal_of_mapError (fun _ => id) hrow

/-- Appending rows does not fail with an internal error. -/
lemma not_isInternal_appendedRows {t : Table} {payload : Payload} {e : DatabaseError}
    (h : appendedRows t payload = .error e) : ¬e.IsInternal := by
  simp only [appendedRows] at h
  split at h
  · cases h
    exact id
  · split at h
    · cases h
      exact id
    · split at h
      · cases h
        exact id
      · exact not_isInternal_of_mapError (fun _ => id) h

/-- No operation fails with an internal error of its effect. -/
lemma isRegular_effect (op : Operation) : op.effect.IsRegular := by
  cases op with
  | execute prover sql =>
    simp only [Operation.effect]
    split
    · rename_i s _
      cases s with
      | createTable s => exact fun e he => not_isInternal_of_mapError (fun _ => id) he
      | createIndex s =>
        refine fun t e he => not_isInternal_of_map (fun e he => ?_) he
        simp only [newIndex] at he
        split at he
        · cases he
        · cases he
          exact id
      | insert s => exact fun t e he => not_isInternal_of_map (fun _ => not_isInternal_newRows) he
      | select s => exact fun t e he => not_isInternal_of_mapError (fun _ => id) he
    · exact id
  | createEntity name payload => exact fun e he => not_isInternal_of_mapError (fun _ => id) he
  | appendData name payload =>
    exact fun t e he => not_isInternal_of_map (fun _ => not_isInternal_appendedRows) he
  | pointer name => trivial
  | tables => trivial

/-! ## Closed memories -/

/-- The empty memory is closed. -/
lemma isClosed_empty : Memory.empty.IsClosed where
  objects k c h hk := by cases hk
  registered name p hp := by cases hp

/-- A closed memory stays closed when a table is moved to an address of a store that has grown. -/
lemma isClosed_move {m : Memory} {o : Objects} {r : Registry} {p : Pointer} (hm : m.IsClosed)
    (ho : o.IsClosed) (hg : m.objects.Grows o) (hr : m.registry.Moves r p) (hp : o.Has p.address) :
    Memory.IsClosed ⟨o, r⟩ where
  objects := ho
  registered name q hq := by
    rw [hr] at hq
    split at hq
    · rename_i hname
      cases hq
      exact ⟨hname, hp⟩
    · obtain ⟨hname, haddress⟩ := hm.registered name q hq
      exact ⟨hname, haddress.grows hg⟩

/-- In a closed memory a registered table is replayed, with whatever outcome. -/
lemma exists_reading?_replay {m : Memory} {name : String} {p : Pointer} (hm : m.IsClosed)
    (hp : m.registry.pointer? name = some p) :
    ∃ t, (replay p.table p.address).reading? m.objects = some t := by
  obtain ⟨t, ht, -⟩ := reads_replay hm.objects (hm.registered name p hp).2
  exact ⟨t, ht⟩

/-- A table that is not moved loads the same from a store that has grown. -/
lemma load_of_grows {m m' : Memory} {name : String} (hm : m.IsClosed)
    (hg : m.objects.Grows m'.objects)
    (hp : m'.registry.pointer? name = m.registry.pointer? name) : load m' name = load m name := by
  cases hpointer : m.registry.pointer? name with
  | none => rw [load, load, run_loadTable_of_none hpointer, run_loadTable_of_none (hp.trans hpointer)]
  | some p =>
    obtain ⟨t, ht⟩ := exists_reading?_replay hm hpointer
    rw [load, load, run_loadTable hpointer ht,
      run_loadTable (hp.trans hpointer) (Procedure.reading?_grows hg ht)]

/-- What a commit behind a history does to a closed memory. -/
lemma run_commit_of_isClosed {m : Memory} {previous : Address} {p : Payload} {h : History}
    (table : String) (hm : m.IsClosed) (hp : p.IsEncoded)
    (hload : (loadHistory previous).reading? m.objects = some (.ok h))
    (hh : ∀ e ∈ h.entries, m.objects.Has e.chunk) :
    ∃ c o, (commit table previous p).run Memory.answer m = (.ok c, { m with objects := o }) ∧
      o.IsClosed ∧ m.objects.Grows o ∧ o.Has c.history := by
  obtain ⟨c, hcommit, hhistory⟩ := run_commit table p hload
  refine ⟨c, _, ?_, isClosed_committed hp hm.objects hh, grows_committed _ _ _ _, hhistory⟩
  rw [commit, Procedure.run_mapError, hcommit]
  rfl

/-! ## Frames -/

/-- What running an operation alone may do to a memory. -/
structure Frame (m : Memory) (e : Effect) (x : Except DatabaseError Response × Memory) : Prop where
  closed : x.2.IsClosed
  grows : m.objects.Grows x.2.objects
  others : ∀ name, (∀ c, e.change? = some c → c.table ≠ name) →
    x.2.registry.pointer? name = m.registry.pointer? name
  failed : ∀ err, x.1 = .error err → x.2 = m ∧ ¬err.IsInternal

variable {m : Memory} {e : Effect} {name : String} {seen : Observation}

/-- An operation that leaves the memory. -/
lemma frame_of_same {o : Except DatabaseError Response} (hm : m.IsClosed)
    (ho : ∀ err, o = .error err → ¬err.IsInternal) : Frame m e (o, m) :=
  ⟨hm, .refl _, fun _ _ => rfl, fun err herr => ⟨rfl, ho err herr⟩⟩

/-- An operation that fails and leaves the memory meets its frame. -/
lemma frame_of_error {err : DatabaseError} (hm : m.IsClosed) (herr : ¬err.IsInternal) :
    Frame m e (.error err, m) :=
  frame_of_same hm fun err' h => by cases h; exact herr

/-- An operation that moves its table to a new history. -/
lemma frame_of_moves {c : Change} {o : Objects} {r : Registry} {p : Pointer} {res : Response}
    (hm : m.IsClosed) (ho : o.IsClosed) (hg : m.objects.Grows o) (hr : m.registry.Moves r p)
    (hp : o.Has p.address) (hname : p.table = c.table) :
    Frame m (.change c seen) (.ok res, ⟨o, r⟩) where
  closed := isClosed_move hm ho hg hr hp
  grows := hg
  others n hn := (hr n).trans (if_neg (hname ▸ hn c rfl))
  failed err herr := by cases herr

/-- Looking a table up leaves the memory. -/
lemma run_lookup (m : Memory) (name : String) :
    (request (.lookup name) : Procedure DatabaseError (Option Pointer)).run Memory.answer m =
      (.ok (m.registry.pointer? name), m) := rfl

/-- A request that succeeds goes on from its answer. -/
lemma run_request_ok {r : Request} {a : r.Result} {m' : Memory}
    (h : Memory.answer r m = (.ok a, m')) :
    (request r : Procedure DatabaseError r.Result).run Memory.answer m = (.ok a, m') := by
  change ((Memory.answer r m).1.mapError DatabaseError.storage, (Memory.answer r m).2) = _
  rw [h]
  rfl

/-- Creating a table meets its frame. -/
theorem frame_creating {table : Except DatabaseError Table}
    {respond : Written → Except DatabaseError Response} (hm : m.IsClosed)
    (htable : ∀ err, table = .error err → ¬err.IsInternal)
    (hrespond : ∀ x, x.pointer.table = name → ∃ r, respond x = .ok r ∧ r.observation = seen) :
    Frame m (.change (.create name table) seen)
      ((creating name table >>= fun x => .ofExcept (respond x)).run Memory.answer m) := by
  rw [creating, bind_assoc, run_bind_ok (run_lookup m name)]
  split
  · exact frame_of_error hm id
  · rename_i hnone
    cases table with
    | error err => exact frame_of_error hm (htable err rfl)
    | ok t =>
      obtain ⟨c, o, hcommit, hclosed, hgrows, hhistory⟩ := run_commit_of_isClosed name hm
        (Payload.isEncoded_ofTable t) (rfl : (loadHistory .sentinel).reading? _ = _)
        fun e he => by cases he
      -- nobody has registered the name since the lookup, so the last request succeeds
      obtain ⟨p, r, hanswer, hname, haddress, hmoves⟩ :=
        Memory.answer_create (m := ⟨o, m.registry⟩) c.history hnone
      obtain ⟨res, hres, -⟩ := hrespond ⟨t, c, p⟩ hname
      rw [ofExcept_ok_bind, bind_assoc, run_bind_ok hcommit, bind_assoc,
        run_bind_ok (run_request_ok hanswer), pure_bind, hres]
      exact frame_of_moves hm hclosed hgrows hmoves (haddress ▸ hhistory) hname

/-- The registration and the table of a load that succeeds. -/
lemma exists_of_load {t : Table} (hm : m.IsClosed) (h : load m name = .ok t) :
    ∃ p, m.registry.pointer? name = some p ∧ p.table = name ∧
      (replay p.table p.address).reading? m.objects = some (.ok t) := by
  cases hpointer : m.registry.pointer? name with
  | none =>
    rw [load, run_loadTable_of_none hpointer] at h
    cases h
  | some p =>
    obtain ⟨out, hread⟩ := exists_reading?_replay hm hpointer
    rw [load, run_loadTable hpointer hread] at h
    cases out with
    | error err => cases h
    | ok u =>
      cases h
      exact ⟨p, rfl, (hm.registered name p hpointer).1, hread⟩

/-- An addition to a table that loads is written and the table is moved to it, however the addition comes
about. -/
lemma exists_run_altering {t : Table} (hm : m.IsClosed) (h : load m name = .ok t) (a : Addition) :
    ∃ c q o r, o.IsClosed ∧ m.objects.Grows o ∧ m.registry.Moves r q ∧ q.table = name ∧
      q.address = c.history ∧ o.Has c.history ∧
      ∀ (key : Pointer → String) (addition : Table → Except DatabaseError Addition),
        (∀ p, p.table = name → key p = name) → addition t = .ok a →
        (altering key name addition).run Memory.answer m = (.ok ⟨t, c, q⟩, ⟨o, r⟩) := by
  obtain ⟨p, hpointer, hname, hread⟩ := exists_of_load hm h
  -- a replay that succeeds has read the history, so that its chunks are there
  obtain ⟨h, hload, -⟩ := reading?_replay_eq_ok_iff.1 hread
  have hentries : ∀ e ∈ h.entries, m.objects.Has e.chunk := by
    obtain ⟨out, hout, hhas⟩ := reads_loadHistory hm.objects (hm.registered name p hpointer).2
    exact hhas h (Option.some.inj (hout.symm.trans hload))
  obtain ⟨c, o, hcommit, hclosed, hgrows, hhistory⟩ :=
    run_commit_of_isClosed p.table hm (isEncoded_payload t a) hload hentries
  obtain ⟨q, r, hanswer, hqname, haddress, hmoves⟩ :=
    Memory.answer_repoint (m := ⟨o, m.registry⟩) c.history hpointer hname rfl
  refine ⟨c, q, o, r, hclosed, hgrows, hmoves, hqname, haddress, hhistory, fun key addition hkey ha => ?_⟩
  rw [altering, run_bind_ok (run_loadTable hpointer hread)]
  simp only [ha]
  rw [ofExcept_ok_bind, run_bind_ok hcommit, hkey p hname, run_bind_ok (run_request_ok hanswer)]
  rfl

/-- Altering a table meets its frame. -/
theorem frame_altering {key : Pointer → String} {addition : Table → Except DatabaseError Addition}
    {respond : Written → Except DatabaseError Response} (hm : m.IsClosed)
    (haddition : ∀ t err, addition t = .error err → ¬err.IsInternal)
    (hkey : ∀ p, p.table = name → key p = name)
    (hrespond : ∀ x a, addition x.table = .ok a → x.pointer.table = name →
      ∃ r, respond x = .ok r ∧ r.observation = seen) :
    Frame m (.change (.alter name addition) seen)
      ((altering key name addition >>= fun x => .ofExcept (respond x)).run Memory.answer m) := by
  cases hpointer : m.registry.pointer? name with
  | none =>
    rw [altering, bind_assoc, run_bind_error (run_loadTable_of_none hpointer)]
    exact frame_of_error hm id
  | some p =>
    obtain ⟨out, hread⟩ := exists_reading?_replay hm hpointer
    have hloaded := run_loadTable hpointer hread
    cases out with
    | error err =>
      rw [altering, bind_assoc, run_bind_error hloaded]
      exact frame_of_error hm id
    | ok t =>
      cases ha : addition t with
      | error err =>
        rw [altering, bind_assoc, run_bind_ok hloaded]
        simp only [ha]
        exact frame_of_error hm (haddition t err ha)
      | ok a =>
        have hload : load m name = .ok t := by rw [load, hloaded]; rfl
        obtain ⟨c, q, o, r, hclosed, hgrows, hmoves, hname, haddress, hhas, hrun⟩ :=
          exists_run_altering hm hload a
        obtain ⟨res, hres, -⟩ := hrespond ⟨t, c, q⟩ a ha hname
        rw [run_bind_ok (hrun key addition hkey ha), hres]
        exact frame_of_moves hm hclosed hgrows hmoves (haddress ▸ hhas) hname

/-- Querying a table meets its frame. -/
theorem frame_querying {answer : Table → Except DatabaseError Query.Answer}
    {respond : Table × Query.Answer → Response} (hm : m.IsClosed)
    (hanswer : ∀ t err, answer t = .error err → ¬err.IsInternal) :
    Frame m (.query name answer)
      ((querying name answer >>= fun x => .ofExcept (.ok (respond x))).run Memory.answer m) := by
  rw [querying, bind_assoc]
  cases hpointer : m.registry.pointer? name with
  | none =>
    rw [run_bind_error (run_loadTable_of_none hpointer)]
    exact frame_of_error hm id
  | some p =>
    obtain ⟨out, hread⟩ := exists_reading?_replay hm hpointer
    cases out with
    | error err =>
      rw [run_bind_error (run_loadTable hpointer hread)]
      exact frame_of_error hm id
    | ok t =>
      rw [run_bind_ok (run_loadTable hpointer hread)]
      simp only
      cases ha : answer t with
      | error err => exact frame_of_error hm (hanswer t err ha)
      | ok a => exact frame_of_same hm fun err herr => by cases herr

/-- Looking a registration up meets its frame. -/
lemma frame_pointer (hm : m.IsClosed) (name : String) :
    Frame m (.pointer name)
      ((do return Response.pointer (← pointer name) :
        Procedure DatabaseError Response).run Memory.answer m) := by
  cases hpointer : m.registry.pointer? name with
  | none =>
    rw [run_bind_error (by rw [run_pointer, hpointer]; rfl)]
    exact frame_of_error hm id
  | some p =>
    rw [run_bind_ok (by rw [run_pointer, hpointer]; rfl)]
    exact frame_of_same hm fun err herr => by cases herr

/-- Every procedure with a regular effect stays within its frame. -/
theorem Implements.frame {p : Procedure DatabaseError Response} (h : Implements p e)
    (he : e.IsRegular) (hm : m.IsClosed) : Frame m e (p.run Memory.answer m) := by
  cases h with
  | fail err => exact frame_of_error hm he
  | create hrespond => exact frame_creating hm he hrespond
  | alter hkey hrespond => exact frame_altering hm he hkey hrespond
  | query hrespond => exact frame_querying hm he
  | pointer name => exact frame_pointer hm name
  | list => exact frame_of_same hm fun err herr => by cases herr

/-- Every memory that operations lead to is closed. -/
theorem isClosed_memoryAfter (ops : List Operation) : (memoryAfter ops).IsClosed := by
  induction ops using List.reverseRecOn with
  | nil => exact isClosed_empty
  | append_singleton ops op ih =>
    rw [memoryAfter_append]
    exact ((implements_effect op).frame (isRegular_effect op) ih).closed

/-- An operation that fails leaves every registration and every table, and its error is not internal;
one that succeeds leaves every registration and every table but those of the table that it changes. -/
theorem run_changes_only_table (ops : List Operation) (op : Operation) :
    (∀ err, (op.run (memoryAfter ops)).1 = .error err →
      (op.run (memoryAfter ops)).2 = memoryAfter ops ∧ ¬err.IsInternal) ∧
    ∀ name, (∀ c, op.effect.change? = some c → c.table ≠ name) →
      (op.run (memoryAfter ops)).2.registry.pointer? name =
        (memoryAfter ops).registry.pointer? name ∧
      load (op.run (memoryAfter ops)).2 name = load (memoryAfter ops) name := by
  have hclosed := isClosed_memoryAfter ops
  have hframe := (implements_effect op).frame (isRegular_effect op) hclosed
  refine ⟨hframe.failed, fun name hname => ⟨hframe.others name hname, ?_⟩⟩
  exact load_of_grows hclosed hframe.grows (hframe.others name hname)

/-- The table cannot be created a second time. -/
lemma run_createNotes_twice : (createNotes.run (memoryAfter [createNotes])).1 =
    .error (.tableExists "notes") := by
  have hregistered : (memoryAfter [createNotes]).registry.pointer? "notes" ≠ none := by
    change (createNotes.procedure.run Memory.answer .empty).2.registry.pointer? "notes" ≠ none
    rw [procedure_createNotes]
    exact Option.some_ne_none _
  rw [Operation.run, procedure_createNotes, creating, bind_assoc,
    run_bind_ok (run_lookup _ "notes"), if_pos (Option.isSome_iff_ne_none.2 hregistered)]
  rfl

/-- A second creation of a table changes nothing. -/
theorem run_changes_only_table_notes :
    (createNotes.run (memoryAfter [createNotes])).1 = .error (.tableExists "notes") ∧
      (createNotes.run (memoryAfter [createNotes])).2 = memoryAfter [createNotes] :=
  ⟨run_createNotes_twice,
    ((run_changes_only_table [createNotes] createNotes).1 _ run_createNotes_twice).1⟩

end Database

end ProvenTables
