import ProvenTables.Proofs.Database.Frame

/-!
# Mutations of one table

What becomes of one table is a line: its history, and what replaying the history gives. A change of the
table writes what its line says, whatever else the memory holds, and leaves a memory that follows the
longer line.
-/

namespace ProvenTables

/-- The registration without its identifier. -/
def Pointer.anonymous (p : Pointer) : Pointer := { p with id := 0 }

/-! ## Outcomes, memories and contents -/

namespace Procedure

variable {ε ε' α β : Type} {m m' m'' : Memory} {cs ds : List String}

/-- Run alone on a memory, the procedure has the outcome `o`, leaves the memory `m'`, and keeps the
contents `cs`. -/
structure Yields (p : Procedure ε α) (m : Memory) (o : Except ε α) (m' : Memory) (cs : List String) :
    Prop where
  run : p.run Memory.answer m = (o, m')
  kept : p.kept m = cs

/-- Two procedures in a row yield what the second one yields after the first. -/
lemma Yields.bind {p : Procedure ε α} {f : α → Procedure ε β} {a : α} {o : Except ε β}
    (hp : p.Yields m (.ok a) m' cs) (hf : (f a).Yields m' o m'' ds) :
    (p >>= f).Yields m o m'' (cs ++ ds) := by
  refine ⟨(run_bind_ok hp.run).trans hf.run, ?_⟩
  obtain ⟨hrun, rfl⟩ := hp
  change (p.bind f).kept m = _
  induction p generalizing m with
  | done o' =>
    cases hrun
    exact hf.kept
  | step r next ih =>
    rw [run_step] at hrun
    simp only [Procedure.bind, Procedure.kept, ih _ hrun, List.append_assoc]

/-- After a procedure that fails nothing more is yielded. -/
lemma Yields.bind_error {p : Procedure ε α} {f : α → Procedure ε β} {e : ε}
    (hp : p.Yields m (.error e) m' cs) : (p >>= f).Yields m (.error e) m' cs := by
  refine ⟨run_bind_error hp.run, ?_⟩
  obtain ⟨hrun, rfl⟩ := hp
  change (p.bind f).kept m = _
  induction p generalizing m with
  | done o' =>
    cases hrun
    rfl
  | step r next ih =>
    rw [run_step] at hrun
    simp only [Procedure.bind, Procedure.kept, ih _ hrun]

/-- A function on the errors goes through what is yielded. -/
lemma Yields.mapError {p : Procedure ε α} {o : Except ε α} (g : ε → ε') (hp : p.Yields m o m' cs) :
    (p.mapError g).Yields m (o.mapError g) m' cs := by
  refine ⟨by rw [run_mapError, hp.run], ?_⟩
  obtain ⟨hrun, rfl⟩ := hp
  change (p.mapOutcome (Except.mapError g)).kept m = _
  induction p generalizing m with
  | done o' => rfl
  | step r next ih =>
    rw [run_step] at hrun
    simp only [mapOutcome, Procedure.kept, ih _ hrun]

/-- A procedure that has ended yields its outcome. -/
lemma yields_done (o : Except ε α) (m : Memory) : (done o).Yields m o m [] := ⟨rfl, rfl⟩

/-- A request yields its answer. -/
lemma yields_request {r : Request} {o : r.Answer} (h : Memory.answer r m = (o, m')) :
    (request r).Yields m o m' r.contents :=
  ⟨h, List.append_nil _⟩

/-- A procedure that reads keeps nothing. -/
lemma yields_of_reading? {p : Procedure ε α} {o : Except ε α} (h : p.reading? m.objects = some o) :
    p.Yields m o m [] := by
  refine ⟨run_of_reading? h, ?_⟩
  induction p with
  | done o' => rfl
  | step r next ih =>
    cases r with
    | fetch a =>
      simp only [reading?] at h
      cases hc : m.objects.get? a.text with
      | none => rw [hc] at h; cases h
      | some c =>
        rw [hc] at h
        have hfetch : m.objects.fetch a = .ok c := by rw [Objects.fetch, hc]
        simp only [Procedure.kept, Memory.answer, hfetch, Request.contents, List.nil_append]
        exact ih _ h
    | _ => cases h

end Procedure

namespace Storage

open Procedure (Yields yields_request yields_done yields_of_reading?)

/-- What a commit behind a history keeps. -/
def committedContents (table : String) (p : Payload) (h : History) : List String :=
  [(Chunk.single table p).toJson.canonical, (extended table p h).toJson.canonical]

/-- A commit after a stored history keeps its chunk and the longer history. -/
lemma yields_commit {m : Memory} {previous : Address} {h : History} (table : String) (p : Payload)
    (hload : (loadHistory previous).reading? m.objects = some (.ok h)) :
    (commit table previous p).Yields m
      (.ok ⟨Address.ofJson (Chunk.single table p).toJson, Address.ofJson (extended table p h).toJson⟩)
      { m with objects := committed m.objects table p h } (committedContents table p h) := by
  rw [commit, append, bind_assoc]
  exact (yields_of_reading? hload).bind ⟨rfl, rfl⟩

end Storage

namespace Database

open Storage
open Procedure (Yields yields_done yields_request yields_of_reading? reading? reading?_grows)

/-! ## Lines -/

/-- What has become of one table. -/
structure Line where
  /-- The history of the table, which is empty if there is none. -/
  history : History
  /-- What replaying the history gives, if there is a table. -/
  table : Option (Except StorageError Table)

namespace Line

/-- The line of a table that has not been created. -/
def empty : Line := ⟨.empty, none⟩

/-- What loading the table gives. -/
def load (name : String) (l : Line) : Except DatabaseError Table :=
  match l.table with
  | none => .error (.unknownTable name)
  | some t => t.mapError DatabaseError.storage

/-- The table, if it can be loaded. -/
def present? (l : Line) : Option Table := l.table.bind Except.toOption

/-- The registration of the table without its identifier. -/
def pointer? (name : String) (l : Line) : Option Pointer :=
  l.table.map fun _ => ⟨0, name, Address.ofJson l.history.toJson⟩

/-- The addresses that are written when a payload is stored behind the line. -/
def commit (name : String) (l : Line) (p : Payload) : Commit :=
  ⟨Address.ofJson (Chunk.single name p).toJson, Address.ofJson (extended name p l.history).toJson⟩

/-- The line with a payload stored behind it. -/
def push (name : String) (l : Line) (p : Payload) : Line :=
  ⟨extended name p l.history, some ((add name p l.present?).mapError .data)⟩

/-- A line loads a table if and only if it has it. -/
lemma load_eq_ok_iff {name : String} {l : Line} {t : Table} :
    l.load name = .ok t ↔ l.table = some (.ok t) := by
  rw [load]
  cases l.table with
  | none => simp
  | some o => cases o <;> simp [Except.mapError]

/-- What a line loads is the table that is present. -/
lemma toOption_load (name : String) (l : Line) : (l.load name).toOption = l.present? := by
  rw [load, present?]
  cases l.table with
  | none => rfl
  | some o => cases o <;> rfl

/-- A table that a line loads is present. -/
lemma present?_of_load {name : String} {l : Line} {t : Table} (h : l.load name = .ok t) :
    l.present? = some t := by
  rw [← toOption_load name, h]
  rfl

end Line

/-- What the memory holds of a table is what its line says. -/
def Follows (m : Memory) (name : String) (l : Line) : Prop :=
  match l.table with
  | none => m.registry.pointer? name = none ∧ l.history = .empty
  | some t => ∃ p, m.registry.pointer? name = some p ∧ p.table = name ∧
      p.address = Address.ofJson l.history.toJson ∧ Stored m.objects l.history.toJson ∧
      (replay name p.address).reading? m.objects = some t

variable {m m' : Memory} {name : String} {l : Line}

/-- The empty memory follows the empty line. -/
lemma follows_empty (name : String) : Follows .empty name .empty := ⟨rfl, rfl⟩

/-- A memory follows the line of a table as long as the table is not moved. -/
lemma Follows.grows (h : Follows m name l) (hg : m.objects.Grows m'.objects)
    (hp : m'.registry.pointer? name = m.registry.pointer? name) : Follows m' name l := by
  unfold Follows at h ⊢
  split at h
  · exact ⟨hp.trans h.1, h.2⟩
  · obtain ⟨p, hpointer, hname, haddress, hstored, hread⟩ := h
    exact ⟨p, hp.trans hpointer, hname, haddress, hstored.grows hg, reading?_grows hg hread⟩

/-- A line of a table that there is none of. -/
lemma Follows.of_none (h : Follows m name l) (hl : l.table = none) :
    m.registry.pointer? name = none ∧ l.history = .empty := by
  unfold Follows at h
  rw [hl] at h
  exact h

/-- A table of a line is registered at the address of its history, from which it is replayed. -/
lemma Follows.of_some {t : Except StorageError Table} (h : Follows m name l)
    (hl : l.table = some t) : ∃ p, m.registry.pointer? name = some p ∧ p.table = name ∧
      p.address = Address.ofJson l.history.toJson ∧ Stored m.objects l.history.toJson ∧
      (replay name p.address).reading? m.objects = some t := by
  unfold Follows at h
  rw [hl] at h
  exact h

/-- The registration of a table is the one of its line, numbers apart. -/
lemma Follows.pointer?_eq (h : Follows m name l) :
    (m.registry.pointer? name).map Pointer.anonymous = l.pointer? name := by
  rw [Line.pointer?]
  cases hl : l.table with
  | none =>
    rw [(h.of_none hl).1]
    rfl
  | some t =>
    obtain ⟨p, hp, hname, haddress, -⟩ := h.of_some hl
    rw [hp, Option.map_some, Pointer.anonymous, hname, haddress]
    rfl

/-- A table is registered if and only if its line has it. -/
lemma Follows.isSome_eq (h : Follows m name l) :
    (m.registry.pointer? name).isSome = l.table.isSome := by
  cases hl : l.table with
  | none =>
    rw [(h.of_none hl).1]
    rfl
  | some t =>
    obtain ⟨p, hp, -⟩ := h.of_some hl
    rw [hp]
    rfl

/-- Looking a table up yields its registration. -/
lemma yields_lookup (m : Memory) (name : String) :
    (request (.lookup name) : Procedure DatabaseError (Option Pointer)).Yields m
      (.ok (m.registry.pointer? name)) m [] := ⟨rfl, rfl⟩

/-- Finding a registration yields it, or the error that there is none. -/
lemma yields_pointer (m : Memory) (name : String) : (pointer name).Yields m
    ((m.registry.pointer? name).elim (.error (.unknownTable name)) .ok) m [] := by
  refine Yields.bind (yields_lookup m name) ?_
  cases m.registry.pointer? name <;> exact yields_done _ _

/-- Loading a table reads what its line says. -/
lemma Follows.yields_loadTable (h : Follows m name l) :
    ∃ o, (loadTable name).Yields m o m [] ∧ o.map Prod.snd = l.load name ∧
      ∀ x, o = .ok x → m.registry.pointer? name = some x.1 := by
  cases hl : l.table with
  | none =>
    have hpointer := yields_pointer m name
    rw [(h.of_none hl).1] at hpointer
    exact ⟨_, hpointer.bind_error, by rw [Line.load, hl]; rfl, fun x hx => by cases hx⟩
  | some t =>
    obtain ⟨p, hp, hname, -, -, hreplay⟩ := h.of_some hl
    have hpointer := yields_pointer m name
    rw [hp] at hpointer
    have hread : ((replay p.table p.address).mapError DatabaseError.storage).reading? m.objects =
        some (t.mapError DatabaseError.storage) := by
      rw [Procedure.reading?_mapError, hname, hreplay]
      rfl
    have hload := yields_of_reading? hread
    rw [Line.load, hl]
    cases t with
    | error e => exact ⟨_, hpointer.bind hload.bind_error, rfl, fun x hx => by cases hx⟩
    | ok t =>
      refine ⟨_, hpointer.bind (hload.bind (yields_done (.ok (p, t)) m)), rfl, fun x hx => ?_⟩
      cases hx
      exact hp

/-- A table is loaded as its line loads it. -/
lemma Follows.load_eq (h : Follows m name l) : Database.load m name = l.load name := by
  obtain ⟨o, hload, ho, -⟩ := h.yields_loadTable
  rw [Database.load, hload.run, ho]

/-! ## Changes of lines -/

/-- What a change does: the table that it starts from or makes, and what is stored of it. -/
structure Deed where
  table : Table
  payload : Payload

/-- What a change does to the table of a line, or why it does nothing. -/
def Change.deed (l : Line) : Change → Except DatabaseError Deed
  | create name table =>
    if l.table.isSome then .error (.tableExists name) else do
      let t ← table
      return ⟨t, .ofTable t⟩
  | alter name addition => do
    let t ← l.load name
    let a ← addition t
    return ⟨t, a.payload t⟩

namespace Change

variable {table : Except DatabaseError Table} {addition : Table → Except DatabaseError Addition}
  {c : Change} {d : Deed}

/-- A creation does something if and only if the line has no table and there is one to create. -/
lemma deed_create_eq_ok_iff : (create name table).deed l = .ok d ↔
    l.table = none ∧ ∃ t, table = .ok t ∧ d = ⟨t, .ofTable t⟩ := by
  rw [deed]
  cases l.table with
  | none =>
    cases table with
    | error e => simp [bind, Except.bind]
    | ok t => simp [bind, Except.bind, pure, Except.pure, eq_comm]
  | some t => simp

/-- A change of a table does something if and only if the line has it and it can be added to. -/
lemma deed_alter_eq_ok_iff : (alter name addition).deed l = .ok d ↔
    ∃ t a, l.load name = .ok t ∧ addition t = .ok a ∧ d = ⟨t, a.payload t⟩ := by
  simp only [deed, bind_eq_ok_iff, pure, Except.pure, Except.ok.injEq]
  constructor
  · rintro ⟨t, ht, a, ha, rfl⟩
    exact ⟨t, a, ht, ha, rfl⟩
  · rintro ⟨t, a, ht, ha, rfl⟩
    exact ⟨t, ht, a, ha, rfl⟩

/-- What a change does is encoded. -/
lemma isEncoded_deed (h : c.deed l = .ok d) : d.payload.IsEncoded := by
  cases c with
  | create name table =>
    obtain ⟨-, t, -, rfl⟩ := deed_create_eq_ok_iff.1 h
    exact Payload.isEncoded_ofTable t
  | alter name addition =>
    obtain ⟨t, a, -, -, rfl⟩ := deed_alter_eq_ok_iff.1 h
    exact isEncoded_payload t a

/-- Nothing is done to a table that cannot be loaded. -/
lemma table_of_deed (h : c.deed l = .ok d) (e : StorageError) : l.table ≠ some (.error e) := by
  intro hl
  cases c with
  | create name table =>
    obtain ⟨hnone, -⟩ := deed_create_eq_ok_iff.1 h
    cases hl.symm.trans hnone
  | alter name addition =>
    obtain ⟨t, a, ht, -⟩ := deed_alter_eq_ok_iff.1 h
    cases hl.symm.trans (Line.load_eq_ok_iff.1 ht)

end Change

/-- The procedures that make changes. -/
inductive Makes : Procedure DatabaseError Written → Change → Prop
  | create (name : String) (table : Except DatabaseError Table) :
    Makes (creating name table) (.create name table)
  | alter {key : Pointer → String} (name : String)
    (addition : Table → Except DatabaseError Addition) :
    (∀ p, p.table = name → key p = name) →
    Makes (altering key name addition) (.alter name addition)

variable {p : Procedure DatabaseError Written} {c : Change}

/-- A change that does nothing reads at most. -/
lemma Makes.yields_error {e : DatabaseError} (h : Makes p c) (hm : Follows m c.table l)
    (hd : c.deed l = .error e) : p.Yields m (.error e) m [] := by
  cases h with
  | create name table =>
    -- the registry knows the table exactly if its line has a state
    have hfound : (m.registry.pointer? name).isSome = l.table.isSome := hm.isSome_eq
    refine Yields.bind (yields_lookup m name) ?_
    rw [hfound]
    rw [Change.deed] at hd
    cases hl : l.table.isSome with
    | true =>
      rw [hl] at hd
      cases hd
      exact yields_done _ _
    | false =>
      rw [hl] at hd
      cases table with
      | error err =>
        cases hd
        exact yields_done _ _
      | ok t => cases hd
  | alter name addition hkey =>
    -- the procedure fails where the deed does, at the load or at the addition
    obtain ⟨o, hload, ho, -⟩ := hm.yields_loadTable
    simp only [Change.deed, Change.table] at hd ho
    cases o with
    | error err =>
      rw [← ho] at hd
      cases hd
      exact hload.bind_error
    | ok x =>
      obtain ⟨q, t⟩ := x
      rw [← ho] at hd
      refine hload.bind ?_
      cases ha : addition t with
      | error err =>
        simp only [Except.map, bind, Except.bind, ha] at hd
        cases hd
        simp only [ha]
        exact yields_done _ _
      | ok a =>
        simp only [Except.map, bind, Except.bind, ha] at hd
        cases hd

/-- A change that is made writes its payload behind the history of the line, and moves the table to the
address of what it has written. -/
lemma Makes.yields_ok {d : Deed} (h : Makes p c) (hm : Follows m c.table l)
    (hd : c.deed l = .ok d) : ∃ q r,
      p.Yields m (.ok ⟨d.table, l.commit c.table d.payload, q⟩)
        ⟨committed m.objects c.table d.payload l.history, r⟩
        (committedContents c.table d.payload l.history) ∧
      q.table = c.table ∧ q.address = (l.commit c.table d.payload).history ∧
      m.registry.Moves r q := by
  cases h with
  | create name table =>
    obtain ⟨hnone, t, rfl, rfl⟩ := Change.deed_create_eq_ok_iff.1 hd
    simp only [Change.table] at hm ⊢
    obtain ⟨hpointer, hhistory⟩ := hm.of_none hnone
    -- the line is empty, so the registry has no such pointer and the creation is not refused
    have hnew : ¬m.registry.pointers.contains name = true := by
      rw [SortedMap.contains, show m.registry.pointers.get? name = none from hpointer]
      simp
    obtain ⟨q, r, hanswer, hname, haddress, hmoves⟩ := Memory.answer_create
      (m := { m with objects := committed m.objects name (.ofTable t) .empty })
      (Address.ofJson (extended name (.ofTable t) .empty).toJson) hnew
    simp only [Line.commit, hhistory]
    refine ⟨q, r, Yields.bind (yields_lookup m name) ?_, hname, haddress, hmoves⟩
    rw [hpointer]
    exact (yields_commit name (.ofTable t) rfl).mapError DatabaseError.storage |>.bind
      (((yields_request hanswer).mapError DatabaseError.storage).bind (yields_done _ _))
  | alter name addition hkey =>
    obtain ⟨t, a, ht, ha, rfl⟩ := Change.deed_alter_eq_ok_iff.1 hd
    simp only [Change.table] at hm ⊢
    obtain ⟨o, hload, ho, hpointer⟩ := hm.yields_loadTable
    obtain ⟨x, rfl, rfl⟩ := map_eq_ok_iff.1 (ho.trans ht)
    obtain ⟨p, t⟩ := x
    obtain ⟨q, hp, hname, haddress, hstored, -⟩ := hm.of_some (Line.load_eq_ok_iff.1 ht)
    obtain rfl : q = p := Option.some.inj (hp.symm.trans (hpointer _ rfl))
    -- the loaded pointer is the line's own, so its address leads to the stored history
    have hhistory : (loadHistory q.address).reading? m.objects = some (.ok l.history) := by
      rw [haddress]
      exact reading?_loadHistory hstored
    obtain ⟨q', r, hanswer, hqname, hqaddress, hmoves⟩ := Memory.answer_repoint
      (m := { m with objects := committed m.objects name (a.payload t) l.history })
      (Address.ofJson (extended name (a.payload t) l.history).toJson) hp hname rfl
    refine ⟨q', r, hload.bind ?_, hqname, hqaddress, hmoves⟩
    simp only [ha, hname]
    rw [hkey q hname]
    exact (yields_commit name (a.payload t) hhistory).mapError DatabaseError.storage |>.bind
      (((yields_request hanswer).mapError DatabaseError.storage).bind (yields_done _ _))

/-- The entries of a history replay to the table, unless it cannot be loaded. -/
lemma Follows.reading?_replayEntries (h : Follows m name l) (hl : ∀ e, l.table ≠ some (.error e)) :
    (replayEntries name none l.history.entries).reading? m.objects = some (.ok l.present?) := by
  rw [Line.present?]
  cases htable : l.table with
  | none =>
    rw [(h.of_none htable).2]
    rfl
  | some t =>
    cases t with
    | error e => exact absurd htable (hl e)
    | ok t =>
      obtain ⟨p, -, -, haddress, hstored, hreplay⟩ := h.of_some htable
      obtain ⟨h', hhistory, hentries⟩ := reading?_replay_eq_ok_iff.1 hreplay
      rw [haddress, reading?_loadHistory hstored] at hhistory
      cases hhistory
      exact hentries

/-- A memory in which a payload has been written behind the history of a line, and the table moved
there, follows the line with the payload. -/
theorem Follows.push {contents : List String} {r : Registry} {q : Pointer} {p : Payload}
    (h : Follows m name l) (hl : ∀ e, l.table ≠ some (.error e)) (hp : p.IsEncoded)
    (hm : m.objects.IsAddressed contents) (hno : NoCollision contents)
    (hkept : committedContents name p l.history ⊆ contents) (hname : q.table = name)
    (haddress : q.address = (l.commit name p).history)
    (hmoves : m.registry.Moves r q) :
    Follows ⟨committed m.objects name p l.history, r⟩ name (l.push name p) := by
  simp only [committedContents, List.cons_subset, List.nil_subset, and_true] at hkept
  have hchunk : Stored (m.objects.put (Chunk.single name p).toJson) (Chunk.single name p).toJson :=
    Objects.stored_put hm hno hkept.1
  have hhistory : Stored (committed m.objects name p l.history) (extended name p l.history).toJson :=
    Objects.stored_put (Objects.isAddressed_keep hm hkept.1) hno hkept.2
  refine ⟨q, (hmoves name).trans (if_pos hname), hname, haddress, hhistory, ?_⟩
  rw [haddress, Line.commit]
  exact reading?_replay_record hp
    (reading?_grows (grows_committed _ _ _ _) (h.reading?_replayEntries hl))
    (hchunk.grows (Objects.grows_put _ _)) hhistory

/-! ## Mutations -/

/-- A change of a table as it has been decoded. -/
inductive Mutation where
  | create (t : Table)
  | rows (rs : List Row)
  | index (name column : String)
  deriving DecidableEq

namespace Mutation

/-- What is stored of a mutation of the table, if there is one. -/
def payload? (t : Option Table) : Mutation → Option Payload
  | create t => some (.ofTable t)
  | rows rs => t.map fun t => .ofRows t rs
  | index name column => do
    let t ← t
    let position ← t.position? column
    return .ofIndex t name (Index.build t.rows position)

/-- The line with a mutation. -/
def apply (name : String) (l : Line) (μ : Mutation) : Line :=
  (μ.payload? l.present?).elim l (l.push name)

end Mutation

/-- The line that mutations of a table make, with nothing else known of any memory. -/
def lineage (name : String) (μs : List Mutation) : Line := μs.foldl (Mutation.apply name) .empty

/-- The table that an effect is about. -/
def Effect.table? : Effect → Option String
  | fail _ => none
  | change c _ => some c.table
  | query name _ => some name
  | pointer name => some name
  | list => none

/-- The mutation that a statement stands for, if the table is the given one. -/
def mutationOfStatement? (t : Option Table) : Sql.Statement → Option Mutation
  | .createTable s => (newTable s).toOption.map .create
  | .createIndex s => some (.index s.index s.column)
  | .insert s => do return .rows (← (newRows (← t) s).toOption)
  | .select _ => none

namespace Operation

/-- The table that an operation is addressed to. -/
def table? (op : Operation) : Option String := op.effect.table?

/-- The mutation that an operation stands for, if the table is the given one. -/
def mutation? (t : Option Table) : Operation → Option Mutation
  | execute _ sql => (Sql.parse sql).toOption.bind (mutationOfStatement? t)
  | createEntity name payload _ => (payload.toTable name).toOption.map .create
  | appendData _ payload _ => do return .rows (← (appendedRows (← t) payload).toOption)
  | pointer _ => none
  | tables => none

/-- The mutation of a table that an operation makes, if it is addressed to the table and succeeds. -/
def made (op : Operation) (name : String) (m : Memory) : Option Mutation :=
  if op.table? = some name ∧ (op.run m).1.isOk = true then op.mutation? (load m name).toOption else none

end Operation

/-- What a change stores is what is stored of the mutation that it is decoded as. -/
lemma exists_mutation {op : Operation} {seen : Observation} {d : Deed}
    (h : op.effect = .change c seen) (hd : c.deed l = .ok d) :
    ∃ μ, op.mutation? l.present? = some μ ∧ μ.payload? l.present? = some d.payload := by
  -- only the statements and payloads that write have the effect `.change`
  cases op with
  | execute prover sql =>
    simp only [Operation.effect] at h
    split at h
    · rename_i s hs
      simp only [Operation.mutation?, hs, Except.toOption, Option.bind_some]
      cases s with
      | createTable s =>
        cases h
        obtain ⟨-, t, ht, rfl⟩ := Change.deed_create_eq_ok_iff.1 hd
        exact ⟨.create t, by simp only [mutationOfStatement?, ht]; rfl, rfl⟩
      | createIndex s =>
        cases h
        obtain ⟨t, a, ht, ha, rfl⟩ := Change.deed_alter_eq_ok_iff.1 hd
        obtain ⟨ix, hix, rfl⟩ := map_eq_ok_iff.1 ha
        simp only [newIndex] at hix
        split at hix
        · rename_i position hposition
          cases hix
          -- the indexed column stands where the mutation finds it in the loaded table
          refine ⟨.index s.index s.column, rfl, ?_⟩
          rw [Line.present?_of_load ht]
          simp only [Mutation.payload?, Option.bind_eq_bind, Option.bind_some, hposition]
          rfl
        · cases hix
      | insert s =>
        cases h
        obtain ⟨t, a, ht, ha, rfl⟩ := Change.deed_alter_eq_ok_iff.1 hd
        obtain ⟨rows, hrows, rfl⟩ := map_eq_ok_iff.1 ha
        -- the literals are converted against the loaded table, as the mutation converts them
        refine ⟨.rows rows, ?_, ?_⟩ <;> rw [Line.present?_of_load ht]
        · simp only [mutationOfStatement?, Option.bind_eq_bind, Option.bind_some, hrows]
          rfl
        · rfl
      | select s => cases h
    · cases h
  | createEntity name payload valid =>
    cases h
    obtain ⟨-, t, ht, rfl⟩ := Change.deed_create_eq_ok_iff.1 hd
    exact ⟨.create t, by simp only [Operation.mutation?, mapError_eq_ok_iff.1 ht]; rfl, rfl⟩
  | appendData name payload valid =>
    cases h
    obtain ⟨t, a, ht, ha, rfl⟩ := Change.deed_alter_eq_ok_iff.1 hd
    obtain ⟨rows, hrows, rfl⟩ := map_eq_ok_iff.1 ha
    refine ⟨.rows rows, ?_, ?_⟩ <;> rw [Line.present?_of_load ht]
    · simp only [Operation.mutation?, Option.bind_eq_bind, Option.bind_some, hrows]
      rfl
    · rfl
  | pointer name => cases h
  | tables => cases h

end Database

end ProvenTables
