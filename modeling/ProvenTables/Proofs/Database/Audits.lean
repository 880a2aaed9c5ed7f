import ProvenTables.Proofs.Database.ContentAddressing
import ProvenTables.Proofs.Database.Mutations
import ProvenTables.Proofs.Query.Grouping
import ProvenTables.Proofs.Storage.Branches

/-!
# What histories say of their chunks

A history lists its chunks, has a record of every chunk, and names the latest one. The three are updated apart
from one another, each time after the history has been read back from its JSON, and agree after any appends
(`isAudit_depositAll`).
-/

namespace ProvenTables

/-! ## Audits -/

namespace History

/-- The chunks in the order in which they were appended. -/
def chunks (h : History) : List Address := h.entries.map (·.chunk)

/-- The history of payloads that have been appended under the names of tables: it has an entry for each of them,
and a record for each chunk in the order in which the chunks first occur. -/
structure IsAudit (h : History) (appended : List (String × Payload)) : Prop where
  entries : h.entries = appended.map fun x =>
    ⟨Address.ofJson (.obj [(x.1, x.2.toJson)]), Digest.ofText x.2.toJson.canonical⟩
  distinct : (h.records.map (·.chunk)).Nodup
  records : h.records.map (·.chunk) = h.chunks.eraseDups
  versions : ∀ r ∈ h.records, r.versions = List.replicate (h.chunks.count r.chunk) r.chunk
  latest : h.latest = h.chunks.getLast?

/-- The history without entries is the audit of nothing. -/
lemma isAudit_empty : empty.IsAudit [] := ⟨rfl, List.nodup_nil, rfl, nofun, rfl⟩

/-- A chunk that has no record gets one behind the others. -/
lemma chunks_addVersion (a : Address) (rs : List ChunkRecord) :
    (addVersion a rs).map (·.chunk) =
      if a ∈ rs.map (·.chunk) then rs.map (·.chunk) else rs.map (·.chunk) ++ [a] := by
  induction rs with
  | nil => rfl
  | cons r rs ih =>
    rw [addVersion]
    by_cases hr : r.chunk = a
    · simp [hr]
    · rw [if_neg hr, List.map_cons, ih]
      by_cases h : a ∈ rs.map (·.chunk) <;> simp [h, Ne.symm hr]

/-- The chunk has one version more, and the other chunks have as many as before. -/
lemma versions_addVersion {a : Address} {rs : List ChunkRecord} (n : Address → ℕ)
    (hdistinct : (rs.map (·.chunk)).Nodup) (hnew : a ∉ rs.map (·.chunk) → n a = 0)
    (h : ∀ r ∈ rs, r.versions = List.replicate (n r.chunk) r.chunk) :
    ∀ r ∈ addVersion a rs, r.versions = List.replicate (n r.chunk + if a = r.chunk then 1 else 0) r.chunk := by
  induction rs with
  | nil =>
    rw [addVersion, List.forall_mem_singleton, hnew List.not_mem_nil, if_pos rfl]
    rfl
  | cons r rs ih =>
    obtain ⟨hr, hdistinct⟩ := List.nodup_cons.1 hdistinct
    obtain ⟨hversions, h⟩ := List.forall_mem_cons.1 h
    rw [addVersion]
    by_cases hfound : r.chunk = a
    · subst hfound
      rw [if_pos rfl, List.forall_mem_cons, if_pos rfl, hversions]
      refine ⟨List.replicate_succ'.symm, fun q hq => ?_⟩
      have hother : r.chunk ≠ q.chunk := fun heq => hr (List.mem_map.2 ⟨q, hq, heq.symm⟩)
      rw [if_neg hother, h q hq, Nat.add_zero]
    · rw [if_neg hfound, List.forall_mem_cons, if_neg (Ne.symm hfound), Nat.add_zero]
      refine ⟨hversions, ih hdistinct (fun hmem => hnew ?_) h⟩
      rw [List.map_cons, List.mem_cons, not_or]
      exact ⟨Ne.symm hfound, hmem⟩

variable {h : History} {appended : List (String × Payload)}

/-- The records of an audit are its chunks, each with as many versions as it has been appended. -/
lemma IsAudit.records_eq (hh : h.IsAudit appended) :
    h.records = h.chunks.eraseDups.map fun c => ⟨c, List.replicate (h.chunks.count c) c⟩ := by
  have hrecord : ∀ r ∈ h.records, r = ⟨r.chunk, List.replicate (h.chunks.count r.chunk) r.chunk⟩ := by
    intro r hr
    rw [← hh.versions r hr]
  rw [← hh.records, List.map_map]
  exact (List.map_id _).symm.trans (List.map_congr_left hrecord)

/-- One more append leaves a history that has one more. -/
lemma IsAudit.extended (hh : h.IsAudit appended) (table : String) (p : Payload) :
    (Storage.extended table p h).IsAudit (appended ++ [(table, p)]) := by
  obtain ⟨a, ha⟩ : ∃ a, a = Address.ofJson (Chunk.single table p).toJson := ⟨_, rfl⟩
  have hentries : (Storage.extended table p h).entries = h.entries ++ [⟨a, (Address.ofJson p.toJson).text⟩] := by
    rw [ha]
    rfl
  have hrecords : (Storage.extended table p h).records = addVersion a h.records := by
    rw [ha]
    rfl
  have hchunks : (Storage.extended table p h).chunks = h.chunks ++ [a] := by
    rw [chunks, hentries, List.map_append]
    rfl
  -- the chunks of the records are the entries' chunks, each at its first use
  have hfirst : (addVersion a h.records).map (·.chunk) = (h.chunks ++ [a]).eraseDups := by
    rw [chunks_addVersion, Query.eraseDups_concat, hh.records]
    simp only [List.mem_eraseDups]
  refine ⟨?_, ?_, ?_, ?_, ?_⟩
  · rw [hentries, hh.entries, List.map_append, ha]
    rfl
  · rw [hrecords, hfirst]
    exact Query.nodup_eraseDups _
  · rw [hrecords, hchunks, hfirst]
  · have hnew : a ∉ h.records.map (·.chunk) → h.chunks.count a = 0 := by
      rw [hh.records, List.mem_eraseDups]
      exact List.count_eq_zero.2
    intro r hr
    rw [hrecords] at hr
    rw [hchunks, List.count_append, List.count_singleton,
      versions_addVersion (h.chunks.count ·) hh.distinct hnew hh.versions r hr]
    simp only [beq_iff_eq]
  · rw [hchunks, List.getLast?_concat, ha]
    rfl

end History

/-! ## Deposits -/

namespace Storage

/-- What a store takes in while a history grows: a payload that is appended to the history, or some other value,
such as a part of another history. -/
inductive Deposit where
  | append (table : String) (payload : Payload)
  | other (v : Json)

namespace Deposit

/-- Makes a deposit behind an address and its history, and gives what is the last after it. -/
def make (last : Address × History) : Deposit → Procedure StorageError (Address × History)
  | append table p => do
    let (c, h) ← Storage.append table p last.1
    return (c.history, h)
  | other v => do
    let _ ← put v
    return last

/-- The history with what a deposit appends to it. -/
def next (h : History) : Deposit → History
  | append table p => extended table p h
  | other _ => h

/-- The contents that a deposit writes. -/
def contents (h : History) : Deposit → List String
  | append table p => committedContents table p h
  | other v => [v.canonical]

/-- What a deposit appends, if it does. -/
def appended? : Deposit → Option (String × Payload)
  | append table p => some (table, p)
  | other _ => none

end Deposit

/-- Makes deposits one after the other, of which the first is behind the sentinel. -/
def depositAll (ds : List Deposit) : Procedure StorageError (Address × History) :=
  ds.foldlM Deposit.make (.sentinel, .empty)

/-- The contents that deposits behind a history write. -/
def depositedContents : History → List Deposit → List String
  | _, [] => []
  | h, d :: ds => d.contents h ++ depositedContents (d.next h) ds

/-- What the memory holds after payloads have been appended: the last history can be loaded, and has all of
them. -/
structure IsLast (contents : List String) (appended : List (String × Payload)) (m : Memory)
    (last : Address × History) : Prop where
  addressed : m.objects.IsAddressed contents
  loaded : (loadHistory last.1).reading? m.objects = some (.ok last.2)
  audit : last.2.IsAudit appended

variable {contents : List String} {appended : List (String × Payload)} {m : Memory} {last : Address × History}

/-- A deposit succeeds and leads to the last history. -/
lemma IsLast.make (h : IsLast contents appended m last) (hno : NoCollision contents) {d : Deposit}
    (hd : d.contents last.2 ⊆ contents) : ∃ last' m', (d.make last).run Memory.answer m = (.ok last', m') ∧
      last'.2 = d.next last.2 ∧ IsLast contents (appended ++ d.appended?.toList) m' last' := by
  cases d with
  | append table p =>
    have hchunk : (Chunk.single table p).toJson.canonical ∈ contents := hd List.mem_cons_self
    have hhistory : (extended table p last.2).toJson.canonical ∈ contents :=
      hd (List.mem_cons_of_mem _ List.mem_cons_self)
    have haddressed := Objects.isAddressed_keep h.addressed hchunk
    refine ⟨_, _, (Procedure.run_bind_ok (run_append_eq table p h.loaded)).trans rfl, rfl, ?_, ?_, ?_⟩
    · exact Objects.isAddressed_keep haddressed hhistory
    · exact reading?_loadHistory (Objects.stored_put haddressed hno hhistory)
    · exact h.audit.extended table p
  | other v =>
    refine ⟨last, { m with objects := m.objects.put v }, rfl, rfl, ?_, ?_, ?_⟩
    · exact Objects.isAddressed_keep h.addressed (hd List.mem_cons_self)
    · exact Procedure.reading?_grows (m.objects.grows_put v) h.loaded
    · rw [Deposit.appended?, Option.toList_none, List.append_nil]
      exact h.audit

/-- Every deposit leaves a last history, behind which the next one is made. -/
lemma IsLast.makeAll (h : IsLast contents appended m last) (hno : NoCollision contents) {ds : List Deposit}
    (hds : depositedContents last.2 ds ⊆ contents) : ∃ last' m',
      (ds.foldlM Deposit.make last).run Memory.answer m = (.ok last', m') ∧
        IsLast contents (appended ++ ds.filterMap (·.appended?)) m' last' := by
  induction ds generalizing appended m last with
  | nil => exact ⟨last, m, rfl, by rwa [List.filterMap_nil, List.append_nil]⟩
  | cons d ds ih =>
    rw [depositedContents, List.append_subset] at hds
    obtain ⟨last', m', hrun, hnext, hlast⟩ := h.make hno hds.1
    rw [← hnext] at hds
    obtain ⟨last'', m'', hrest, hall⟩ := ih hlast hds.2
    refine ⟨last'', m'', ?_, ?_⟩
    · rw [List.foldlM_cons, Procedure.run_bind_ok hrun, hrest]
    · have happended : (d :: ds).filterMap (·.appended?) = d.appended?.toList ++ ds.filterMap (·.appended?) := by
        rw [List.filterMap_cons]
        cases d.appended? <;> rfl
      rwa [happended, ← List.append_assoc]

/-- Deposits only put and read objects, and change no registration. -/
lemma isComposed_depositAll (ds : List Deposit) : (depositAll ds).IsComposed := by
  rw [depositAll]
  generalize (Address.sentinel, History.empty) = last
  induction ds generalizing last with
  | nil => exact .done _
  | cons d ds ih =>
    rw [List.foldlM_cons]
    refine .bind ?_ ih
    cases d with
    | append table p => exact (isComposed_append table p last.1).bind fun _ => .done _
    | other v => exact (isComposed_put v).bind fun _ => .done _

/-- In a store in memory or in a directory, whatever is in it and whatever else is put into it between them,
appends that follow the sentinel all succeed. They return the history of what has been appended, which is what
their address then gives, as long as the addresses of the contents do not collide. -/
theorem isAudit_depositAll {x : Medium} {m : Memory} {held : List String} {ds : List Deposit} (hx : x.Holds m)
    (hm : m.objects.IsAddressed held) (hno : NoCollision (held ++ depositedContents .empty ds)) :
    ∃ a h y, (depositAll ds).runOn x = (.ok (a, h), y) ∧ h.IsAudit (ds.filterMap (·.appended?)) ∧
      (loadHistory a).runOn y = (.ok h, y) := by
  have hstart : IsLast (held ++ depositedContents .empty ds) [] m (.sentinel, .empty) :=
    ⟨fun k c hk => ⟨List.mem_append_left _ (hm k c hk).1, (hm k c hk).2⟩, rfl, History.isAudit_empty⟩
  obtain ⟨⟨a, h⟩, m', hrun, hlast⟩ := hstart.makeAll hno (List.subset_append_right held _)
  obtain ⟨y, hend, hy⟩ := hx.run (isComposed_depositAll ds).keepsOwn
  rw [depositAll, hrun] at hend hy
  exact ⟨a, h, y, hend, hlast.audit, hy.runOn_of_reading? hlast.loaded⟩

/-! ## A repeated append -/

/-- A table without rows, and behind it the same rows twice, with another value put between them. -/
def repeated : List Deposit :=
  [.append first.table first.part.payload, .append second.table second.part.payload, .other .null,
    .append second.table second.part.payload]

/-- The history of the first write. -/
def once : History := extended first.table first.part.payload .empty

/-- The history of the first two writes. -/
def twice : History := extended second.table second.part.payload once

/-- The history with the second write made twice. -/
def thrice : History := extended second.table second.part.payload twice

/-- The values that are put, each once. -/
def repeatedValues : List Json :=
  [(Chunk.single first.table first.part.payload).toJson, once.toJson,
    (Chunk.single second.table second.part.payload).toJson, twice.toJson, .null, thrice.toJson]

/-- The documents of the deposits have these addresses. -/
lemma addresses_repeatedValues : repeatedValues.map Address.ofJson =
    [⟨"d6901905553ca27e69da552af044b6ae79ffd8e7992f964fbe6bb80c406c9215"⟩,
      ⟨"88e94ca2efef0338654118da3b37ea290f2239217f9f695bc52e5f4a80cf7dad"⟩,
      ⟨"5e541f841bf5842011a957fb278ddb2876976cf060b112517b28c457c73c9ae4"⟩,
      ⟨"e14c367d106b5961aac16017ddd753215c9a56eac12f46edcb8e64f97b8e0868"⟩,
      ⟨"74234e98afe7498fb5daf1f36ac2d78acc339464f950703b8c019892f982b90b"⟩,
      ⟨"596bd87bcbe31f2f1caa6f0254e2ba074807781037c7ca94b59208c62f03a9ed"⟩] := by
  obtain ⟨hfirst, hfirstDigest⟩ := writes_first
  obtain ⟨hsecond, hsecondDigest⟩ := writes_second
  have hvalues : repeatedValues.map Address.ofJson = (contents [first, second]).map Address.ofText ++
      [Address.ofJson .null, Address.ofJson thrice.toJson] := rfl
  have hthrice : Address.ofJson thrice.toJson =
      ⟨"596bd87bcbe31f2f1caa6f0254e2ba074807781037c7ca94b59208c62f03a9ed"⟩ := by
    rw [thrice, twice, once, extended_eq hfirst hfirstDigest, extended_eq hsecond hsecondDigest,
      extended_eq hsecond hsecondDigest, Address.ofJson_eq]
    decide +kernel
  rw [hvalues, addresses_twins, ofJson_null, hthrice]
  rfl

/-- The contents of the deposits do not collide. -/
lemma noCollision_repeated : NoCollision ([] ++ depositedContents .empty repeated) := by
  have hno : NoCollision (repeatedValues.map Json.canonical) := by
    have haddresses : (repeatedValues.map Json.canonical).map Address.ofText = repeatedValues.map Address.ofJson := rfl
    refine noCollision_of_nodup ?_
    rw [haddresses, addresses_repeatedValues]
    decide
  have hcontents : [] ++ depositedContents .empty repeated = (repeatedValues.take 5 ++
      [(Chunk.single second.table second.part.payload).toJson, thrice.toJson]).map Json.canonical := rfl
  rw [hcontents]
  refine hno.mono (List.map_subset _ ?_)
  simp [repeatedValues]

/-- The rows that are appended again have one record with two versions. -/
theorem isAudit_depositAll_repeated :
    newDirectory.Holds .empty ∧ Objects.IsAddressed [] Memory.empty.objects ∧
      NoCollision ([] ++ depositedContents .empty repeated) ∧
      ∃ a h y, (depositAll repeated).runOn newDirectory = (.ok (a, h), y) ∧ (loadHistory a).runOn y = (.ok h, y) ∧
        ∃ c d, c ≠ d ∧ h.chunks = [c, d, d] ∧ h.records = [⟨c, [c]⟩, ⟨d, [d, d]⟩] ∧ h.latest = some d := by
  have hnew : newDirectory.Holds .empty := (Medium.IsNew.directory _).holds
  have hempty : Objects.IsAddressed [] Memory.empty.objects := Objects.isAddressed_empty []
  obtain ⟨a, h, y, hrun, haudit, hload⟩ := isAudit_depositAll hnew hempty noCollision_repeated
  obtain ⟨c, hc⟩ : ∃ c, c = Address.ofJson (Chunk.single first.table first.part.payload).toJson := ⟨_, rfl⟩
  obtain ⟨d, hd⟩ : ∃ d, d = Address.ofJson (Chunk.single second.table second.part.payload).toJson := ⟨_, rfl⟩
  have hne : c ≠ d := by
    rw [hc, hd, writes_first.1, writes_second.1]
    decide
  have hchunks : h.chunks = [c, d, d] := by
    rw [History.chunks, haudit.entries, hc, hd]
    rfl
  refine ⟨hnew, hempty, noCollision_repeated, a, h, y, hrun, hload, c, d, hne, hchunks, ?_, ?_⟩
  · rw [haudit.records_eq, hchunks]
    simp [List.eraseDups_cons, hne, Ne.symm hne]
  · rw [haudit.latest, hchunks]
    rfl

end Storage

end ProvenTables
