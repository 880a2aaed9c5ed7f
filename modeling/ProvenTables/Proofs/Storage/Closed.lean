import ProvenTables.Proofs.Storage.Replay

/-!
# Closed stores

In a store that is filled by commits the chunks of every history that is stored are stored too, so that
what is under an address that is registered can be read as long as the store grows. This holds whether
or not two contents have the same address.
-/

namespace ProvenTables

namespace Objects

/-- Something is stored under an address. -/
def Has (o : Objects) (a : Address) : Prop := ∃ c, o.get? a.text = some c

/-- The history that a content stands for, if it stands for one. -/
def history? (content : String) : Option History := (Json.parse? content).bind History.ofJson?

/-- The chunks of every history that is stored are stored. -/
def IsClosed (o : Objects) : Prop :=
  ∀ k c h, o.get? k = some c → history? c = some h → ∀ e ∈ h.entries, o.Has e.chunk

/-- The objects with a value under its address, unless something is stored there. -/
def put (o : Objects) (v : Json) : Objects := o.keep (Address.ofJson v) v.canonical

variable {o o' : Objects}

/-- An object is still there when objects are added. -/
lemma Has.grows {a : Address} (h : o.Has a) (hg : o.Grows o') : o'.Has a := by
  obtain ⟨c, hc⟩ := h
  exact ⟨c, hg _ _ hc⟩

/-- A document that is put is there. -/
lemma has_put (o : Objects) (v : Json) : (o.put v).Has (Address.ofJson v) := by
  rw [Has, put, get?_keep, if_pos rfl]
  cases o.get? (Address.ofJson v).text with
  | none => exact ⟨_, rfl⟩
  | some c => exact ⟨c, rfl⟩

/-- Putting a document adds objects only. -/
lemma grows_put (o : Objects) (v : Json) : o.Grows (o.put v) := grows_keep o _ _

/-- A value can be put into a closed store if the chunks of its history are there. -/
lemma isClosed_put {v : Json} (ho : o.IsClosed)
    (hv : ∀ h, history? v.canonical = some h → ∀ e ∈ h.entries, o.Has e.chunk) :
    (o.put v).IsClosed := by
  intro k c h hc hh e he
  -- either the content was there before, or it is that of the value
  rw [put, get?_keep] at hc
  refine Has.grows ?_ (o.grows_put v)
  cases hk : o.get? k with
  | some d =>
    rw [hk] at hc
    cases hc
    exact ho k c h hk hh e he
  | none =>
    rw [hk, Option.none_or] at hc
    split at hc
    · cases hc
      exact hv h hh e he
    · cases hc

end Objects

namespace History

/-- The text of a history stands for it. -/
lemma history?_canonical (h : History) : Objects.history? h.toJson.canonical = some h := by
  rw [Objects.history?, h.isCanonical_toJson.parse? (by decide), Option.bind_some, ofJson?_toJson]

end History

namespace Chunk

/-- The record that an object with one field is. -/
lemma record?_single (names : List String) (k : String) (v : Json) :
    (Json.obj [(k, v)]).record? names =
      some (names.map fun n => if k = n then some v else none) := by
  by_cases hk : k ∈ names
  · have hfields : (Json.obj [(k, v)]).recordFields? names = some [(k, v)] := by
      simp [Json.recordFields?, hk]
    rw [Json.record?, hfields]
    simp only [Option.bind_eq_bind, Option.bind_some, List.all_cons, List.all_nil, hk, decide_true,
      Bool.and_true, ↓reduceIte]
    refine congrArg some (List.map_congr_left fun n _ => ?_)
    by_cases hn : k = n <;> simp [hn]
  · have hfields : (Json.obj [(k, v)]).recordFields? names = some [] := by
      simp [Json.recordFields?, hk]
    rw [Json.record?, hfields]
    refine congrArg some (List.map_congr_left fun n hn => ?_)
    rw [if_neg fun heq : k = n => hk (heq ▸ hn)]
    rfl

/-- A chunk can be taken for a history only if that has no entries. -/
lemma entries_of_history?_single {table : String} {p : Payload} {h : History} (hp : p.IsEncoded)
    (hh : Objects.history? (single table p).toJson.canonical = some h) : h.entries = [] := by
  have hjson : (single table p).toJson = .obj [(table, p.toJson)] := rfl
  rw [Objects.history?, (isCanonical_toJson_single hp).parse? (by decide), Option.bind_some, hjson,
    History.ofJson?, record?_single] at hh
  simp only [List.map_cons, List.map_nil, Option.bind_eq_bind, Option.bind_some,
    Option.bind_eq_some_iff] at hh
  -- the only field is a payload, which is no list of entries whatever the name of the table
  obtain ⟨entries, hentries, records, -, es, hes, rs, -, latest, -, hsome⟩ := hh
  split at hentries
  · cases hentries
  · cases hentries
    cases hes
    cases hsome
    rfl

end Chunk

namespace Procedure

/-- A procedure does nothing but read objects that are there, and its result, if it has one, has a
property. -/
def Reads {ε α : Type} (o : Objects) (p : Procedure ε α) (q : α → Prop) : Prop :=
  ∃ out, p.reading? o = some out ∧ ∀ a, out = .ok a → q a

variable {ε α β : Type} {o : Objects}

/-- Two procedures in a row read as they do one after the other. -/
lemma Reads.bind {p : Procedure ε α} {f : α → Procedure ε β} {q : α → Prop} {q' : β → Prop}
    (hp : p.Reads o q) (hf : ∀ a, q a → (f a).Reads o q') : (p >>= f).Reads o q' := by
  obtain ⟨out, hout, hq⟩ := hp
  cases out with
  | ok a =>
    obtain ⟨out', hout', hq'⟩ := hf a (hq a rfl)
    exact ⟨out', (reading?_bind_ok hout).trans hout', hq'⟩
  | error e =>
    refine ⟨.error e, (reading?_bind o p f).trans (by rw [hout]), fun b hb => ?_⟩
    cases hb

/-- A procedure that has a result reads nothing. -/
lemma reads_pure {a : α} {q : α → Prop} (h : q a) : (pure a : Procedure ε α).Reads o q :=
  ⟨.ok a, rfl, fun b hb => by cases hb; exact h⟩

/-- A procedure that fails reads nothing. -/
lemma reads_fail {e : ε} {q : α → Prop} : (fail e : Procedure ε α).Reads o q :=
  ⟨.error e, rfl, fun a ha => by cases ha⟩

end Procedure

namespace Storage

open Procedure (Reads reads_pure reads_fail reading?)

variable {o : Objects}

/-! ## Reading -/

/-- An object that is there is read as its document. -/
lemma reads_get {a : Address} (ha : o.Has a) :
    (get a).Reads o fun v => ∃ c, o.get? a.text = some c ∧ Json.parse? c = some v := by
  obtain ⟨c, hc⟩ := ha
  have hfetch : (Procedure.request (.fetch a)).Reads o fun d => d = c :=
    ⟨.ok c, by simp only [Procedure.request, reading?, hc], fun d hd => by cases hd; rfl⟩
  refine hfetch.bind fun d hd => ?_
  subst hd
  cases hv : Json.parse? d with
  | none => exact reads_fail
  | some v => exact reads_pure ⟨d, hc, hv⟩

/-- In a closed store a history can be read, and its chunks are there. -/
lemma reads_loadHistory {a : Address} (ho : o.IsClosed) (ha : o.Has a) :
    (loadHistory a).Reads o fun h => ∀ e ∈ h.entries, o.Has e.chunk := by
  rw [loadHistory]
  split
  · exact reads_pure fun e he => by cases he
  · refine (reads_get ha).bind fun v hv => ?_
    obtain ⟨c, hc, hcv⟩ := hv
    cases hh : History.ofJson? v with
    | none => exact reads_fail
    | some h => exact reads_pure (ho a.text c h hc (by rw [Objects.history?, hcv]; exact hh))

/-- A replay only reads chunks that are there if the entries name such. -/
lemma reads_replayEntries {table : String} {t : Option Table} {es : List HistoryEntry}
    (hes : ∀ e ∈ es, o.Has e.chunk) : (replayEntries table t es).Reads o fun _ => True := by
  induction es generalizing t with
  | nil => exact reads_pure trivial
  | cons e es ih =>
    refine (reads_get (hes e List.mem_cons_self)).bind fun v _ => ?_
    have hchunk : ((Procedure.ofExcept (Chunk.ofJson v >>= replayChunk table t)).mapError
        StorageError.data).Reads o fun _ => True := ⟨_, rfl, fun _ _ => trivial⟩
    exact hchunk.bind fun t _ => ih fun d hd => hes d (List.mem_cons_of_mem _ hd)

/-- What is under an address in a closed store can be replayed, with whatever outcome. -/
theorem reads_replay {table : String} {a : Address} (ho : o.IsClosed) (ha : o.Has a) :
    (replay table a).Reads o fun _ => True := by
  refine (reads_loadHistory ho ha).bind fun h hh => (reads_replayEntries hh).bind fun t _ => ?_
  cases t with
  | none => exact reads_fail
  | some t => exact reads_pure trivial

/-! ## Committing -/

/-- The objects after a payload has been committed behind a history. -/
def committed (o : Objects) (table : String) (p : Payload) (h : History) : Objects :=
  (o.put (Chunk.single table p).toJson).put
    (h.record (Address.ofJson (Chunk.single table p).toJson) (Address.ofJson p.toJson).text).toJson

/-- A commit adds objects only. -/
lemma grows_committed (o : Objects) (table : String) (p : Payload) (h : History) :
    o.Grows (committed o table p h) :=
  (o.grows_put _).trans (Objects.grows_put _ _)

/-- The history that a commit writes. -/
def extended (table : String) (p : Payload) (h : History) : History :=
  h.record (Address.ofJson (Chunk.single table p).toJson) (Address.ofJson p.toJson).text

/-- The extended history has the addresses of its chunk and of its payload. -/
lemma extended_eq {table : String} {p : Payload} {h : History} {chunk : Address} {digest : String}
    (hchunk : Address.ofJson (Chunk.single table p).toJson = chunk)
    (hdigest : (Address.ofJson p.toJson).text = digest) :
    extended table p h = h.record chunk digest := by
  rw [extended, hchunk, hdigest]

/-- A payload is appended behind a history that is there. -/
lemma run_append_eq {m : Memory} {previous : Address} {h : History} (table : String) (p : Payload)
    (hload : (loadHistory previous).reading? m.objects = some (.ok h)) :
    (append table p previous).run Memory.answer m =
      (.ok (⟨Address.ofJson (Chunk.single table p).toJson, Address.ofJson (extended table p h).toJson⟩,
        extended table p h), { m with objects := committed m.objects table p h }) := by
  rw [append, Procedure.run_bind_ok (Procedure.run_of_reading? hload)]
  rfl

/-- A commit behind a history that is there succeeds. -/
lemma run_commit_eq {m : Memory} {previous : Address} {h : History} (table : String) (p : Payload)
    (hload : (loadHistory previous).reading? m.objects = some (.ok h)) :
    (commit table previous p).run Memory.answer m =
      (.ok ⟨Address.ofJson (Chunk.single table p).toJson, Address.ofJson (extended table p h).toJson⟩,
        { m with objects := committed m.objects table p h }) := by
  rw [commit, Procedure.run_bind_ok (run_append_eq table p hload)]
  rfl

/-- A commit after a history that can be loaded succeeds, and its objects are there. -/
lemma run_commit {m : Memory} {previous : Address} {h : History} (table : String) (p : Payload)
    (hload : (loadHistory previous).reading? m.objects = some (.ok h)) :
    ∃ c, (commit table previous p).run Memory.answer m =
        (.ok c, { m with objects := committed m.objects table p h }) ∧
      (committed m.objects table p h).Has c.history :=
  ⟨_, run_commit_eq table p hload, Objects.has_put _ _⟩

/-- A commit keeps a store closed. -/
theorem isClosed_committed {table : String} {p : Payload} {h : History} (hp : p.IsEncoded)
    (ho : o.IsClosed) (hh : ∀ e ∈ h.entries, o.Has e.chunk) :
    (committed o table p h).IsClosed := by
  refine Objects.isClosed_put (Objects.isClosed_put ho fun g hg e he => ?_) fun g hg e he => ?_
  · rw [Chunk.entries_of_history?_single hp hg] at he
    cases he
  · -- the new history has the chunks of the old one and the one that has just been put
    rw [History.history?_canonical] at hg
    cases hg
    rcases List.mem_append.1 he with he | he
    · exact (hh e he).grows (o.grows_put _)
    · rw [List.mem_singleton.1 he]
      exact Objects.has_put _ _

end Storage

end ProvenTables
