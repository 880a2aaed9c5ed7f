import ProvenTables.Proofs.Database.FailFast
import ProvenTables.Proofs.Database.Guarded
import ProvenTables.Proofs.Database.Refinement
import ProvenTables.Proofs.Storage.Files

/-!
# Faults

Operations on a data directory, any number of them at once, of which any request may fail and which stop
with their process between any two requests; what has been written is there when the directory is opened
again. In every state that is reached this way, every table that is registered leads to a history whose
chunks are all there and belong together (`isConsistent_run`).
-/

namespace ProvenTables

/-! ## What a registration leads to -/

namespace Disk

/-- The history that is stored under an address. -/
def history? (d : Disk) (a : Address) : Option History :=
  (d.fetch a).toOption.bind Objects.history?

/-- The chunk that is stored under an address. -/
def chunk? (d : Disk) (a : Address) : Option Chunk := do
  let v ← (d.fetch a).toOption.bind Json.parse?
  (Chunk.ofJson v).toOption

/-- The history of an address is read from the content there. -/
lemma history?_of_fetch {d : Disk} {a : Address} {content : String} (h : d.fetch a = .ok content) :
    d.history? a = Objects.history? content := by
  rw [history?, h]
  rfl

/-- The chunk of an address is read from the content there. -/
lemma chunk?_of_fetch {d : Disk} {a : Address} {content : String} {v : Json}
    (h : d.fetch a = .ok content) (hv : Json.parse? content = some v) :
    d.chunk? a = (Chunk.ofJson v).toOption := by
  simp only [chunk?, h, Except.toOption, Option.bind_some, hv, Option.bind_eq_bind]

/-- The address of the registration is that of a history with entries. All their chunks are there, each
of nothing but the table, with the same columns of the same types. -/
def Resolves (d : Disk) (p : Pointer) : Prop :=
  ∃ h, d.history? p.address = some h ∧ h.entries ≠ [] ∧
    ∃ columns types, ∀ e ∈ h.entries, ∃ payload : Payload,
      d.chunk? e.chunk = some (.single p.table payload) ∧
        payload.columns = columns ∧ payload.types = types

/-- The content is that of the registered history or of one of its chunks. -/
def Reaches (d : Disk) (p : Pointer) (content : String) : Prop :=
  d.fetch p.address = .ok content ∨
    ∃ h, d.history? p.address = some h ∧ ∃ e ∈ h.entries, d.fetch e.chunk = .ok content

end Disk

namespace Database

open Storage

/-! ## Processes -/

/-- An operation that has been started. -/
structure Attempt where
  /-- What is left of it, or its outcome. -/
  rest : Procedure DatabaseError Response
  /-- The contents that it has kept. -/
  kept : List String
  /-- Whether it has registered or moved a table. -/
  moved : Bool
  /-- Whether its process has stopped before it has returned. -/
  stopped : Bool

namespace Attempt

/-- An operation that has made no request. -/
def start (op : Operation) : Attempt := ⟨op.procedure, [], false, false⟩

/-- The attempt when its process stops. -/
def stop (a : Attempt) : Attempt :=
  match a.rest with
  | .done _ => a
  | .step _ _ => { a with stopped := true }

/-- Its outcome is an error, or its process has stopped before there was one. -/
def HasFailed (a : Attempt) : Prop := a.stopped = true ∨ ∃ e, a.rest = .done (.error e)

end Attempt

/-- A process that has a data directory open, and what has been started on the directory, also by the
processes before it. -/
structure Process where
  directory : Directory
  attempts : List Attempt

/-- What can happen to a process. -/
inductive Event where
  | start (op : Operation)
  /-- The next request of an attempt is answered. -/
  | proceed (attempt : ℕ)
  /-- The next request of an attempt has no effect, and is answered with an error. -/
  | fail (attempt : ℕ) (e : StorageError)
  /-- The process stops, and the directory is opened again. -/
  | stop

namespace Process

/-- What an event does to a process; an attempt that has stopped or returned does nothing more. -/
def act (s : Process) : Event → Process
  | .start op => { s with attempts := s.attempts ++ [.start op] }
  | .proceed n =>
    match s.attempts[n]? with
    | some ⟨.step r next, kept, moved, false⟩ =>
      let (answer, directory) := Directory.answer r s.directory
      ⟨directory, s.attempts.set n
        ⟨next answer, kept ++ r.contents, moved || r.commits answer, false⟩⟩
    | _ => s
  | .fail n e =>
    match s.attempts[n]? with
    | some ⟨.step _ next, kept, moved, false⟩ =>
      { s with attempts := s.attempts.set n ⟨next (.error e), kept, moved, false⟩ }
    | _ => s
  | .stop =>
    match Directory.mount s.directory.disk s.directory.retry with
    | .ok directory => ⟨directory, s.attempts.map Attempt.stop⟩
    | .error _ => { s with attempts := s.attempts.map Attempt.stop }

/-- The process after events, of which the first is on an empty directory. -/
def run (retry : RetryPolicy) (events : List Event) : Process :=
  events.foldl act ⟨⟨.empty, .empty, retry⟩, []⟩

/-- The contents that have been kept. -/
def written (s : Process) : List String := s.attempts.flatMap (·.kept)

/-- The contents that have been kept by operations that have registered or moved a table. -/
def used (s : Process) : List String := (s.attempts.filter (·.moved)).flatMap (·.kept)

/-- Registrations lead to histories of their tables, and to nothing that no operation has written that
has registered or moved a table. An operation that has failed has not done so. -/
structure IsConsistent (s : Process) : Prop where
  reopens : Directory.mount s.directory.disk s.directory.retry = .ok s.directory
  resolves : ∀ name p, s.directory.registry.pointer? name = some p →
    p.table = name ∧ s.directory.disk.Resolves p
  reaches : ∀ name p content, s.directory.registry.pointer? name = some p →
    s.directory.disk.Reaches p content → content ∈ s.used
  failed : ∀ a ∈ s.attempts, a.HasFailed → a.moved = false

end Process

/-! ## What has been written -/

/-- The attempt is no further than the other one. -/
structure Attempt.Le (a a' : Attempt) : Prop where
  kept : a.kept ⊆ a'.kept
  moved : a.moved = true → a'.moved = true

/-- An attempt is no further than itself. -/
lemma Attempt.Le.refl (a : Attempt) : a.Le a := ⟨List.Subset.refl _, id⟩

/-- An attempt that has moved nothing is no further than one that has kept as much. -/
lemma Attempt.le_of_unmoved {a a' : Attempt} (h : a.moved = false) (hkept : a.kept ⊆ a'.kept) :
    a.Le a' := by
  refine ⟨hkept, fun hmoved => ?_⟩
  rw [h] at hmoved
  cases hmoved

/-- An attempt is no further than when its process stops. -/
lemma Attempt.le_stop (a : Attempt) : a.Le a.stop := by
  rw [stop]
  split <;> exact ⟨List.Subset.refl _, id⟩

namespace Process

variable {s s' : Process} {contents : List String} {m : Memory}

/-- What has been written is what the attempts have kept. -/
lemma mem_written {c : String} : c ∈ s.written ↔ ∃ a ∈ s.attempts, c ∈ a.kept := by
  rw [written, List.mem_flatMap]

/-- What is used is what the attempts have kept that have moved a table. -/
lemma mem_used {c : String} : c ∈ s.used ↔ ∃ a ∈ s.attempts, a.moved = true ∧ c ∈ a.kept := by
  simp only [used, List.mem_flatMap, List.mem_filter, and_assoc]

/-- Every attempt goes on as one of the other process. -/
def Le (s s' : Process) : Prop := ∀ a ∈ s.attempts, ∃ a' ∈ s'.attempts, a.Le a'

/-- A process that is further has written as much. -/
lemma Le.written (h : s.Le s') : s.written ⊆ s'.written := by
  intro c hc
  obtain ⟨a, ha, hca⟩ := mem_written.1 hc
  obtain ⟨a', ha', hle⟩ := h a ha
  exact mem_written.2 ⟨a', ha', hle.kept hca⟩

/-- A process that is further uses as much. -/
lemma Le.used (h : s.Le s') : s.used ⊆ s'.used := by
  intro c hc
  obtain ⟨a, ha, hmoved, hca⟩ := mem_used.1 hc
  obtain ⟨a', ha', hle⟩ := h a ha
  exact mem_used.2 ⟨a', ha', hle.moved hmoved, hle.kept hca⟩

/-- A process whose attempt is further is further. -/
lemma le_set {n : ℕ} {a a' : Attempt} {d : Directory} (ha : s.attempts[n]? = some a)
    (hle : a.Le a') : s.Le ⟨d, s.attempts.set n a'⟩ := by
  intro b hb
  obtain ⟨i, hi⟩ := List.mem_iff_getElem?.1 hb
  by_cases hin : n = i
  · subst hin
    cases ha.symm.trans hi
    have hlt : n < s.attempts.length := (List.getElem?_eq_some_iff.1 ha).1
    exact ⟨a', List.mem_of_getElem? (List.getElem?_set_self hlt), hle⟩
  · exact ⟨b, List.mem_of_getElem? ((List.getElem?_set_ne hin).trans hi), .refl b⟩

/-- Every event leads a process further. -/
lemma le_act (s : Process) (e : Event) : s.Le (s.act e) := by
  have hrefl : s.Le s := fun a ha => ⟨a, ha, .refl a⟩
  cases e with
  | start op => exact fun a ha => ⟨a, List.mem_append_left _ ha, .refl a⟩
  | proceed n =>
    simp only [act]
    split
    · rename_i r next kept moved ha
      exact le_set ha ⟨List.subset_append_left _ _, fun h => by simp [show moved = true from h]⟩
    · exact hrefl
  | fail n e =>
    simp only [act]
    split
    · rename_i ha
      exact le_set ha ⟨List.Subset.refl _, id⟩
    · exact hrefl
  | stop =>
    have hstop : ∀ d : Directory, s.Le ⟨d, s.attempts.map Attempt.stop⟩ :=
      fun d a ha => ⟨a.stop, List.mem_map_of_mem ha, a.le_stop⟩
    simp only [act]
    split
    · exact hstop _
    · exact hstop _

end Process

/-! ## Validity -/

/-- What every event keeps of an attempt: only one that has an outcome has registered or moved a table,
and every other one is guarded. -/
structure Attempt.IsValid (contents : List String) (b : Basis) (a : Attempt) : Prop where
  failsFast : a.rest.FailsFast
  waiting : a.stopped = true → ∃ r next, a.rest = .step r next
  returned : a.moved = true → ∃ r, a.rest = .done (.ok r)
  guarded : a.moved = false → IsGuarded contents a.kept a.rest b

/-- An attempt stays valid when the others go on. -/
lemma Attempt.IsValid.mono {contents : List String} {b b' : Basis} {a : Attempt}
    (h : a.IsValid contents b) (hle : b.Le b') : a.IsValid contents b' :=
  ⟨h.failsFast, h.waiting, h.returned, fun hmoved => (h.guarded hmoved).mono hle⟩

/-- An attempt that has not returned has registered nothing. -/
lemma Attempt.IsValid.moved_eq_false {contents kept : List String} {b : Basis} {r : Request}
    {next : r.Answer → Procedure DatabaseError Response} {moved stopped : Bool}
    (h : Attempt.IsValid contents b ⟨.step r next, kept, moved, stopped⟩) : moved = false := by
  refine Bool.eq_false_iff.2 fun hmoved => ?_
  obtain ⟨res, hres⟩ := h.returned hmoved
  cases hres

namespace Process

variable {s : Process} {contents : List String} {m : Memory}

/-- The directory holds the memory, on which everything is valid. -/
structure IsValid (contents : List String) (m : Memory) (s : Process) : Prop where
  holds : s.directory.Holds m
  basis : Basis.IsValid contents ⟨m, s.used⟩
  attempts : ∀ a ∈ s.attempts, a.IsValid contents ⟨m, s.used⟩

/-- The attempts go on on a basis that has grown. -/
lemma isValid_set {n : ℕ} {a a' : Attempt} {d : Directory} {m' : Memory} {used : List String}
    (h : s.IsValid contents m) (ha : s.attempts[n]? = some a) (hle : a.Le a') (hd : d.Holds m')
    (hgrows : m.objects.Grows m'.objects)
    (hused : used ⊆ (⟨d, s.attempts.set n a'⟩ : Process).used)
    (hbasis : Basis.IsValid contents ⟨m', used⟩)
    (ha' : a'.IsValid contents ⟨m', used⟩) :
    IsValid contents m' ⟨d, s.attempts.set n a'⟩ := by
  refine ⟨hd, hbasis.mono hused, fun b hb => ?_⟩
  rcases List.mem_or_eq_of_mem_set hb with hb | rfl
  · exact (h.attempts b hb).mono ⟨hgrows, (le_set ha hle).used⟩
  · exact ha'.mono ⟨.refl _, hused⟩

/-- Starting an operation leaves the process valid. -/
lemma isValid_start (h : s.IsValid contents m) (hno : NoCollision contents) (op : Operation) :
    (s.act (.start op)).IsValid contents m := by
  have hused : (s.act (.start op)).used = s.used := by
    simp [used, act, Attempt.start]
  refine ⟨h.holds, hused ▸ h.basis, fun a ha => hused ▸ ?_⟩
  rcases List.mem_append.1 ha with ha | ha
  · exact h.attempts a ha
  · rw [List.mem_singleton.1 ha]
    refine ⟨failsFast_operation op, fun h => ?_, fun h => ?_, fun _ => guarded_operation op hno _⟩
    · cases h
    · cases h

/-- A request is answered as by the memory that the directory holds. -/
lemma isValid_proceed (h : s.IsValid contents m) (n : ℕ)
    (hwritten : (s.act (.proceed n)).written ⊆ contents) :
    ∃ m', (s.act (.proceed n)).IsValid contents m' := by
  simp only [act] at hwritten ⊢
  split at hwritten
  · rename_i r next kept moved ha
    have hvalid := h.attempts _ (List.mem_of_getElem? ha)
    obtain rfl := hvalid.moved_eq_false
    obtain ⟨-, hnext⟩ := hvalid.failsFast
    have hlt : n < s.attempts.length := (List.getElem?_eq_some_iff.1 ha).1
    -- what the attempt keeps is written by this step, so it is among the given contents
    have hkept : kept ++ r.contents ⊆ contents := fun c hc => hwritten (mem_written.2
      ⟨_, List.mem_of_getElem? (List.getElem?_set_self hlt), hc⟩)
    obtain ⟨hown, hstep⟩ := hvalid.guarded rfl ⟨m, s.used⟩ (.refl _) h.basis
      (List.append_subset.1 hkept).2
    have hdigest : ∀ a c, r = .keep a c → a.isDigest = true := by
      rintro a c rfl
      rw [show a = Address.ofText c from hown]
      exact Address.isDigest_ofText c
    obtain ⟨hanswer, hholds⟩ := h.holds.answer hdigest
    rw [hanswer]
    refine ⟨(Memory.answer r m).2, ?_⟩
    split at hstep
    · rename_i hcommits
      -- the request has moved a pointer, so all that is left of the attempt is a response
      obtain ⟨⟨o, ho, res, rfl⟩, hbasis⟩ := hstep
      rw [hcommits]
      have hle : Attempt.Le ⟨.step r next, kept, false, false⟩
          ⟨next (Memory.answer r m).1, kept ++ r.contents, false || true, false⟩ :=
        Attempt.le_of_unmoved rfl (List.subset_append_left _ _)
      refine isValid_set h ha hle hholds (Memory.grows_answer r m) ?_ hbasis ?_
      · refine List.append_subset.2 ⟨(le_set ha hle).used, fun c hc => mem_used.2 ?_⟩
        exact ⟨_, List.mem_of_getElem? (List.getElem?_set_self hlt), rfl, List.mem_append_left _ hc⟩
      · refine ⟨hnext _, fun h => ?_, fun _ => ⟨res, ho⟩, fun h => ?_⟩
        · cases h
        · cases h
    · rename_i hquiet
      -- nothing has moved, so the attempt stays guarded with more kept than before
      rw [Bool.eq_false_iff.2 hquiet]
      have hle : Attempt.Le ⟨.step r next, kept, false, false⟩
          ⟨next (Memory.answer r m).1, kept ++ r.contents, false || false, false⟩ :=
        Attempt.le_of_unmoved rfl (List.subset_append_left _ _)
      refine isValid_set h ha hle hholds (Memory.grows_answer r m) (le_set ha hle).used hstep.1 ?_
      refine ⟨hnext _, fun h => ?_, fun h => ?_, fun _ => hstep.2⟩
      · cases h
      · cases h
  · exact ⟨m, h⟩

/-- A request that fails leaves the process valid. -/
lemma isValid_fail (h : s.IsValid contents m) (n : ℕ) (e : StorageError) :
    (s.act (.fail n e)).IsValid contents m := by
  simp only [act]
  split
  · rename_i r next kept moved ha
    have hvalid := h.attempts _ (List.mem_of_getElem? ha)
    obtain rfl := hvalid.moved_eq_false
    obtain ⟨herror, hnext⟩ := hvalid.failsFast
    obtain ⟨e', he'⟩ := herror e
    have hle : Attempt.Le ⟨.step r next, kept, false, false⟩ ⟨next (.error e), kept, false, false⟩ :=
      ⟨List.Subset.refl _, id⟩
    refine isValid_set h ha hle h.holds (.refl _) (le_set ha hle).used h.basis ?_
    refine ⟨hnext _, fun h => ?_, fun h => ?_, fun _ => ?_⟩
    · cases h
    · cases h
    · rw [he']
      exact fun _ _ _ => trivial
  · exact h

/-- Stopping leaves the process valid, and the directory opens with the same memory. -/
lemma isValid_stop (h : s.IsValid contents m) : (s.act .stop).IsValid contents m := by
  have hstop : ∀ a : Attempt, a.stop.moved = a.moved ∧ a.stop.kept = a.kept := by
    intro a
    rw [Attempt.stop]
    split <;> exact ⟨rfl, rfl⟩
  have hused : (⟨s.directory, s.attempts.map Attempt.stop⟩ : Process).used = s.used := by
    simp only [used, List.filter_map, List.flatMap_map, Function.comp_def, hstop]
  simp only [act, h.holds.mount]
  refine ⟨h.holds, hused ▸ h.basis, fun a ha => hused ▸ ?_⟩
  obtain ⟨b, hb, rfl⟩ := List.mem_map.1 ha
  obtain ⟨hfast, hwaiting, hreturned, hguarded⟩ := h.attempts b hb
  rw [Attempt.stop]
  split
  · exact ⟨hfast, hwaiting, hreturned, hguarded⟩
  · rename_i r next hrest
    exact ⟨hfast, fun _ => ⟨r, next, hrest⟩, hreturned, hguarded⟩

/-- Every event leaves the process valid, if no two contents have the same address. -/
theorem isValid_act (h : s.IsValid contents m) (hno : NoCollision contents) (e : Event)
    (hwritten : (s.act e).written ⊆ contents) : ∃ m', (s.act e).IsValid contents m' := by
  cases e with
  | start op => exact ⟨m, isValid_start h hno op⟩
  | proceed n => exact isValid_proceed h n hwritten
  | fail n e => exact ⟨m, isValid_fail h n e⟩
  | stop => exact ⟨m, isValid_stop h⟩

/-- The last event comes after the others. -/
lemma run_append (retry : RetryPolicy) (events : List Event) (e : Event) :
    run retry (events ++ [e]) = (run retry events).act e := by
  rw [run, List.foldl_append]
  rfl

/-- Every order of events leads to a valid process. -/
theorem isValid_run {retry : RetryPolicy} {events : List Event} (hno : NoCollision contents)
    (hwritten : (run retry events).written ⊆ contents) :
    ∃ m, (run retry events).IsValid contents m := by
  induction events using List.reverseRecOn with
  | nil =>
    refine ⟨.empty, Directory.holds_empty retry, ⟨fun k c hk => ?_, fun name p hp => ?_⟩, fun a ha => ?_⟩
    · cases hk
    · cases hp
    · cases ha
  | append_singleton events e ih =>
    rw [run_append] at hwritten ⊢
    obtain ⟨m, h⟩ := ih (List.Subset.trans (le_act _ e).written hwritten)
    exact isValid_act h hno e hwritten

/-! ## Consistency -/

variable {b : Basis} {d : Directory}

/-- A document that is used is read from the disk. -/
lemma fetch_of_uses (hd : d.Holds b.memory) {v : Json} (hv : b.Uses v) :
    d.disk.fetch (Address.ofJson v) = .ok v.canonical := by
  rw [hd.objects, Objects.fetch, show b.memory.objects.get? _ = some _ from hv.stored]

/-- A history that is used is found on the disk. -/
lemma history?_of_uses (hd : d.Holds b.memory) {h : History} (hh : b.Uses h.toJson) :
    d.disk.history? (Address.ofJson h.toJson) = some h :=
  (Disk.history?_of_fetch (fetch_of_uses hd hh)).trans h.history?_canonical

/-- A chunk that is used is found on the disk. -/
lemma chunk?_of_uses (hd : d.Holds b.memory) {table : String} {p : Payload} (hp : p.IsEncoded)
    (hv : b.Uses (Chunk.single table p).toJson) :
    d.disk.chunk? (Address.ofJson (Chunk.single table p).toJson) = some (.single table p) := by
  have hparse : Json.parse? (Chunk.single table p).toJson.canonical = some _ :=
    (Chunk.isCanonical_toJson_single hp).parse? (by decide)
  rw [Disk.chunk?_of_fetch (fetch_of_uses hd hv) hparse, Chunk.ofJson_toJson_single hp]
  rfl

/-- A registration that leads to a history of its table resolves on the disk. -/
lemma resolves_of_leads {p : Pointer} {columns : List Column} {h : History} (hd : d.Holds b.memory)
    (hl : b.Leads p.table p.address columns h) : d.disk.Resolves p := by
  refine ⟨h, hl.address ▸ history?_of_uses hd hl.uses, hl.nonempty, columns.map (·.name),
    .ofList (columns.map fun c => (c.name, c.type)), fun e he => ?_⟩
  obtain ⟨payload, hcolumns, hencoded, haddress, huses⟩ := hl.chunks e he
  exact ⟨payload, haddress ▸ chunk?_of_uses hd hencoded huses, hcolumns.names, hcolumns.types⟩

/-- Only contents of the basis are reached. -/
lemma used_of_reaches {p : Pointer} {columns : List Column} {h : History} {content : String}
    (hd : d.Holds b.memory) (hl : b.Leads p.table p.address columns h)
    (hreach : d.disk.Reaches p content) : content ∈ b.used := by
  rcases hreach with hfetch | ⟨g, hg, e, he, hfetch⟩
  · rw [hl.address, fetch_of_uses hd hl.uses] at hfetch
    cases hfetch
    exact hl.uses.used
  · rw [hl.address, history?_of_uses hd hl.uses] at hg
    cases hg
    obtain ⟨payload, -, -, haddress, huses⟩ := hl.chunks e he
    rw [haddress, fetch_of_uses hd huses] at hfetch
    cases hfetch
    exact huses.used

/-- An attempt that has failed has moved nothing. -/
lemma moved_of_hasFailed {a : Attempt} (h : a.IsValid contents b)
    (hfailed : a.HasFailed) : a.moved = false := by
  refine Bool.eq_false_iff.2 fun hmoved => ?_
  obtain ⟨res, hres⟩ := h.returned hmoved
  rcases hfailed with hstopped | ⟨e, he⟩
  · obtain ⟨r, next, hnext⟩ := h.waiting hstopped
    cases hres.symm.trans hnext
  · cases hres.symm.trans he

/-- A valid process is consistent. -/
lemma IsValid.isConsistent (h : s.IsValid contents m) : s.IsConsistent where
  reopens := h.holds.mount
  resolves name p hp := by
    obtain ⟨rfl, columns, g, hl⟩ := h.basis.leads name p (h.holds.registry ▸ hp)
    exact ⟨rfl, resolves_of_leads h.holds hl⟩
  reaches name p content hp hreach := by
    obtain ⟨rfl, columns, g, hl⟩ := h.basis.leads name p (h.holds.registry ▸ hp)
    exact used_of_reaches h.holds hl hreach
  failed a ha hfailed := moved_of_hasFailed (h.attempts a ha) hfailed

end Process

/-! ## A second try -/

/-- The attempt with the number `n` to create a table, up to its last request. -/
def writing (n : ℕ) : List Event := [.start createNotes, .proceed n, .proceed n, .proceed n]

/-- A table is created twice. The first time the last request fails. -/
def twice : List Event := writing 0 ++ [.fail 0 .io] ++ writing 1 ++ [.proceed 1]

/-- Reads are tried again up to eight times. -/
def retrying : RetryPolicy := .ofMillis 100 5000 8

namespace Process

/-- The process after the events of two attempts. -/
def retried : Process := run retrying twice

section Last

variable {as : List Attempt} {d : Directory} {name c : String} {kept : List String}

/-- The last attempt asks for a registration. -/
lemma act_lookup {next : Request.Answer (.lookup name) → Procedure DatabaseError Response} :
    act ⟨d, as ++ [⟨.step (.lookup name) next, kept, false, false⟩]⟩ (.proceed as.length) =
      ⟨d, as ++ [⟨next (.ok (d.registry.pointer? name)), kept, false, false⟩]⟩ := by
  simp [act, Directory.answer, Request.contents, Request.commits]

/-- The last attempt keeps a content. -/
lemma act_keep (as : List Attempt) (d : Directory) (kept : List String)
    (next : Request.Answer (.keep (.ofText c) c) → Procedure DatabaseError Response) :
    ∃ disk, act ⟨d, as ++ [⟨.step (.keep (.ofText c) c) next, kept, false, false⟩]⟩
        (.proceed as.length) =
      ⟨{ d with disk := disk }, as ++ [⟨next (.ok ()), kept ++ [c], false, false⟩]⟩ := by
  have hkeep : (d.disk.keep (.ofText c) c).1 = .ok () := by
    simp only [Disk.keep, Address.isDigest_ofText, Bool.not_true, Bool.false_eq_true, ↓reduceIte]
    split <;> rfl
  refine ⟨(d.disk.keep (.ofText c) c).2, ?_⟩
  simp [act, Directory.answer, Request.contents, Request.commits, hkeep]

/-- The last attempt registers a table. -/
lemma act_create {a : Address} (as : List Attempt) (d : Directory) (kept : List String)
    (next : Request.Answer (.create name a) → Procedure DatabaseError Response)
    (hnew : d.registry.pointers.contains name = false) :
    ∃ d' p, act ⟨d, as ++ [⟨.step (.create name a) next, kept, false, false⟩]⟩
        (.proceed as.length) = ⟨d', as ++ [⟨next (.ok p), kept, true, false⟩]⟩ ∧
      d'.registry.pointer? name = some p := by
  obtain ⟨p, r, hcreate, hp⟩ : ∃ p r, d.registry.create name a = .ok (p, r) ∧
      r.pointer? name = some p := by
    refine ⟨_, _, if_neg (by simp [hnew]), ?_⟩
    simp [Registry.pointer?]
  refine ⟨{ d with registry := r, disk := { d.disk with registry := some r.render } }, p, ?_, hp⟩
  simp [act, Directory.answer, Directory.change, hcreate, Request.contents, Request.commits]

/-- The requests of the operation, if there is no such table and none of them fails. -/
lemma steps_createNotes : ∃ c₁ c₂ a next₀ next₁ next₂ next₃,
    createdContents "notes" notes = [c₁, c₂] ∧
      createNotes.procedure = .step (.lookup "notes") next₀ ∧
      next₀ (.ok none) = .step (.keep (.ofText c₁) c₁) next₁ ∧
      next₁ (.ok ()) = .step (.keep (.ofText c₂) c₂) next₂ ∧
      next₂ (.ok ()) = .step (.create "notes" a) next₃ ∧
      ∀ e, ∃ e', next₃ (.error e) = .done (.error e') := by
  rw [procedure_createNotes]
  exact ⟨_, _, _, _, _, _, _, rfl, rfl, rfl, rfl, rfl, fun e => ⟨_, rfl⟩⟩

/-- An attempt to create the table has written what it writes when it asks for the registration. -/
lemma act_writing (as : List Attempt) (d : Directory) (hnew : d.registry.pointer? "notes" = none) :
    ∃ disk a next, (writing as.length).foldl act ⟨d, as⟩ = ⟨{ d with disk := disk },
        as ++ [⟨.step (.create "notes" a) next, createdContents "notes" notes, false, false⟩]⟩ ∧
      ∀ e, ∃ e', next (.error e) = .done (.error e') := by
  obtain ⟨c₁, c₂, a, next₀, next₁, next₂, next₃, hcontents, h₀, h₁, h₂, h₃, herror⟩ :=
    steps_createNotes
  have hstart : act ⟨d, as⟩ (.start createNotes) =
      ⟨d, as ++ [⟨.step (.lookup "notes") next₀, [], false, false⟩]⟩ := by
    rw [← h₀]
    rfl
  obtain ⟨disk₁, hchunk⟩ := act_keep as d [] next₁
  obtain ⟨disk₂, hhistory⟩ := act_keep as { d with disk := disk₁ } ([] ++ [c₁]) next₂
  refine ⟨disk₂, a, next₃, ?_, herror⟩
  simp only [writing, List.foldl_cons, List.foldl_nil]
  rw [hstart, act_lookup, hnew, h₁, hchunk, h₂, hhistory, h₃, hcontents]
  rfl

end Last

/-- The process after the first try has failed and the second one has succeeded. -/
lemma retried_eq : ∃ d p e rest,
    retried = ⟨d, [⟨.done (.error e), createdContents "notes" notes, false, false⟩,
      ⟨rest, createdContents "notes" notes, true, false⟩]⟩ ∧
    d.registry.pointer? "notes" = some p := by
  obtain ⟨disk₁, a₁, next₁, hfirst, herror⟩ := act_writing [] ⟨.empty, .empty, retrying⟩ rfl
  obtain ⟨e, he⟩ := herror .io
  obtain ⟨first, hfailed⟩ : ∃ first : Attempt,
      first = ⟨.done (.error e), createdContents "notes" notes, false, false⟩ := ⟨_, rfl⟩
  have hfail : act ⟨⟨disk₁, .empty, retrying⟩,
      [⟨.step (.create "notes" a₁) next₁, createdContents "notes" notes, false, false⟩]⟩
        (.fail 0 .io) = ⟨⟨disk₁, .empty, retrying⟩, [first]⟩ := by
    rw [hfailed, ← he]
    rfl
  obtain ⟨disk₂, a₂, next₂, hsecond, -⟩ := act_writing [first] ⟨disk₁, .empty, retrying⟩ rfl
  obtain ⟨d, p, hcreate, hp⟩ := act_create [first] ⟨disk₂, .empty, retrying⟩
    (createdContents "notes" notes) next₂ rfl
  refine ⟨d, p, e, next₂ (.ok p), ?_, hp⟩
  simp only [List.length_nil, List.nil_append] at hfirst
  simp only [List.length_singleton] at hsecond hcreate
  rw [← hfailed]
  simp only [retried, run, twice, List.foldl_append, List.foldl_cons, List.foldl_nil, hfirst, hfail,
    hsecond, hcreate]
  rfl

/-- What the two attempts write does not collide. -/
lemma noCollision_retried : NoCollision retried.written := by
  obtain ⟨d, p, e, rest, hrun, -⟩ := retried_eq
  refine noCollision_notes.mono fun c hc => ?_
  rw [hrun] at hc
  simpa [written] using hc

end Process

/-! ## Every registration leads to its table -/

/-- Whatever operations are started, in whatever order their requests are answered, which of them fail
and where the process stops: every registration leads to a history of its table, of whose contents each
has been written by an operation that has registered or moved a table. -/
theorem isConsistent_run {retry : RetryPolicy} {events : List Event}
    (hno : NoCollision (Process.run retry events).written) :
    (Process.run retry events).IsConsistent := by
  obtain ⟨m, h⟩ := Process.isValid_run hno (List.Subset.refl _)
  exact h.isConsistent

/-- The second try registers the table although the first one has left its contents. -/
theorem isConsistent_run_twice :
    NoCollision (Process.run retrying twice).written ∧ (Process.run retrying twice).IsConsistent ∧
      ((Process.run retrying twice).directory.registry.pointer? "notes").isSome := by
  refine ⟨Process.noCollision_retried, isConsistent_run Process.noCollision_retried, ?_⟩
  obtain ⟨d, p, e, rest, hrun, hp⟩ := Process.retried_eq
  rw [← Process.retried, hrun, hp]
  rfl

/-- What an operation that has failed has written is reached, if another one has written it too. -/
theorem reaches_of_failed :
    ∃ a ∈ Process.retried.attempts, a.HasFailed ∧ ∃ content ∈ a.kept, ∃ p,
      Process.retried.directory.registry.pointer? "notes" = some p ∧
        Process.retried.directory.disk.Reaches p content := by
  obtain ⟨m, hvalid⟩ := Process.isValid_run Process.noCollision_retried (List.Subset.refl _)
  obtain ⟨d, p, e, rest, hrun, hp⟩ := Process.retried_eq
  rw [← Process.retried, hrun] at hvalid
  rw [hrun]
  obtain ⟨-, columns, h, hleads⟩ := hvalid.basis.leads "notes" p (hvalid.holds.registry ▸ hp)
  -- the second attempt has written the same contents as the first one
  have hkept : h.toJson.canonical ∈ createdContents "notes" notes := by
    simpa [Process.used] using hleads.uses.used
  refine ⟨_, List.mem_cons_self, .inr ⟨e, rfl⟩, h.toJson.canonical, hkept, p, hp, .inl ?_⟩
  rw [hleads.address]
  exact Process.fetch_of_uses hvalid.holds hleads.uses

end Database

end ProvenTables
