import ProvenTables.Proofs.Json.RoundTrip
import ProvenTables.Proofs.Storage.Decode
import ProvenTables.Storage.History

/-!
# Soundness of replayed tables

Whatever is in a store and however it answers, a table that is replayed from it is sound
(`ensures_replay`): what cannot be made sound is refused when the first chunk is decoded, when a later one
is added, and when its indexes are laid over those before.
-/

namespace ProvenTables

namespace Json

/-- The items of a well-formed document are well-formed. -/
lemma wellFormed_of_arr? {v : Json} {items : List Json} (hv : v.WellFormed) (h : v.arr? = some items) :
    ∀ w ∈ items, w.WellFormed := by
  cases v <;> cases h
  exact wellFormedItems_iff.1 (by simpa only [WellFormed] using hv)

/-- The fields of a well-formed record are well-formed. -/
lemma wellFormed_of_recordFields? {v : Json} {names : List String} {fields : List (String × Json)}
    (hv : v.WellFormed) (h : v.recordFields? names = some fields) : ∀ f ∈ fields, f.2.WellFormed := by
  cases v with
  | arr items =>
    cases h
    exact fun f hf => wellFormed_of_arr? hv rfl _ (List.of_mem_zip hf).2
  | obj fs =>
    simp only [recordFields?] at h
    split at h
    · cases h
      have hfs := wellFormedFields_iff.1 (by simpa only [WellFormed] using hv)
      exact fun f hf => hfs f (List.mem_of_mem_filter hf)
    · cases h
  | _ => cases h

/-- What holds of all that well-formed fields stand for holds of a map of them. -/
lemma forall_of_map? {α : Type} {f : Json → Option α} {P : α → Prop} {v : Json} {m : SortedMap α}
    (hv : v.WellFormed) (hf : ∀ w a, w.WellFormed → f w = some a → P a) (h : v.map? f = some m) :
    ∀ e ∈ m.entries, P e.2 := by
  cases v with
  | obj fs =>
    have hfs := wellFormedFields_iff.1 (by simpa only [WellFormed] using hv)
    obtain ⟨es, hes, rfl⟩ := Option.map_eq_some_iff.1 h
    intro e he
    obtain ⟨p, hp, hpe⟩ := exists_of_mapM_some hes e (SortedMap.mem_of_mem_sortEntries he)
    obtain ⟨a, ha, rfl⟩ := Option.map_eq_some_iff.1 hpe
    exact hf _ _ (hfs p hp) ha
  | _ => cases h

end Json

/-! ## Payloads -/

namespace Payload

/-- Every cell of the rows is a JSON value. -/
def AreValid (rows : List (List Json)) : Prop := ∀ r ∈ rows, ∀ v ∈ r, v.WellFormed

/-- The rows of a well-formed document are valid. -/
lemma areValid_rowsOfJson? {v : Json} {rows : List (List Json)} (hv : v.WellFormed)
    (h : rowsOfJson? v = some rows) : AreValid rows := by
  obtain ⟨items, hitems, hrows⟩ := Option.bind_eq_some_iff.1 h
  intro r hr
  obtain ⟨w, hw, hwr⟩ := exists_of_mapM_some hrows r hr
  obtain ⟨cells, hcells, rfl⟩ := Option.map_eq_some_iff.1 hwr
  intro c hc
  obtain ⟨d, hd, rfl⟩ := List.mem_map.1 hc
  exact (Json.wellFormed_of_arr? (Json.wellFormed_of_arr? hv hitems w hw) hcells d hd).normalize

/-- What is required is there if and only if it is read. -/
lemma require_eq_ok_iff {α : Type} {o : Option α} {a : α} : require o = .ok a ↔ o = some a := by
  cases o <;> simp [require]

/-- The rows and indexes that have been read consist of JSON values. -/
structure Draft.IsValid (d : Draft) : Prop where
  rows : ∀ rows, d.rows = some rows → AreValid rows
  indexes : ∀ m, d.indexes = some m → ∀ i ∈ m.entries, ∀ b ∈ i.2.entries, AreValid b.2

/-- A draft stays valid with one more field. -/
lemma Draft.IsValid.add {d d' : Draft} {field : String × Json} (hd : d.IsValid)
    (hv : field.2.WellFormed) (h : d.add field = .ok d') : d'.IsValid := by
  simp only [Draft.add] at h
  split at h
  · -- the names of the columns
    obtain ⟨names, -, h⟩ := bind_eq_ok_iff.1 h
    cases h
    exact ⟨hd.rows, hd.indexes⟩
  · -- the types of the columns
    split at h
    · obtain ⟨types, -, h⟩ := bind_eq_ok_iff.1 h
      cases h
      exact ⟨hd.rows, hd.indexes⟩
    · cases h
  · -- the rows
    obtain ⟨rows, hrows, h⟩ := bind_eq_ok_iff.1 h
    cases h
    refine ⟨fun rs hrs => ?_, hd.indexes⟩
    cases hrs
    exact areValid_rowsOfJson? hv (require_eq_ok_iff.1 hrows)
  · -- the indexes
    obtain ⟨indexes, hindexes, h⟩ := bind_eq_ok_iff.1 h
    cases h
    refine ⟨hd.rows, fun m hm => ?_⟩
    cases hm
    refine Json.forall_of_map? (P := fun m => ∀ b ∈ m.entries, AreValid b.2) hv (fun w a hw ha => ?_)
      (require_eq_ok_iff.1 hindexes)
    exact Json.forall_of_map? hw (fun _ _ => areValid_rowsOfJson?) ha
  · cases h

/-- A draft stays valid with further fields. -/
lemma Draft.IsValid.foldlM {fields : List (String × Json)} (hfields : ∀ f ∈ fields, f.2.WellFormed)
    {d d' : Draft} (hd : d.IsValid) (h : fields.foldlM Draft.add d = .ok d') : d'.IsValid := by
  induction fields generalizing d with
  | nil =>
    cases h
    exact hd
  | cons f fs ih =>
    obtain ⟨hf, hfs⟩ := List.forall_mem_cons.1 hfields
    rw [List.foldlM_cons] at h
    obtain ⟨e, he, h⟩ := bind_eq_ok_iff.1 h
    exact ih hfs (hd.add hf he) h

/-- A payload that is read from a JSON value consists of JSON values. -/
theorem isValid_ofJson {v : Json} {p : Payload} (hv : v.WellFormed) (h : ofJson v = .ok p) :
    p.IsValid := by
  simp only [ofJson, bind_eq_ok_iff] at h
  obtain ⟨fields, hfields, d, hd, columns, -, types, -, rows, hrows, hp⟩ := h
  cases hp
  have hwell := Json.wellFormed_of_recordFields? hv (require_eq_ok_iff.1 hfields)
  have hvalid := Draft.IsValid.foldlM hwell (d := {}) (by constructor <;> intro _ h <;> cases h) hd
  refine ⟨hvalid.rows rows (require_eq_ok_iff.1 hrows), ?_⟩
  cases hindexes : d.indexes with
  | none =>
    intro i hi
    cases hi
  | some m => exact hvalid.indexes m hindexes

end Payload

/-- The payloads of a chunk that is read from a JSON value consist of JSON values. -/
lemma Chunk.isValid_of_get? {v : Json} {c : Chunk} {table : String} {p : Payload} (hv : v.WellFormed)
    (h : Chunk.ofJson v = .ok c) (hp : c.get? table = some p) : p.IsValid := by
  cases v with
  | obj fs =>
    have hfs := Json.wellFormedFields_iff.1 (by simpa only [Json.WellFormed] using hv)
    obtain ⟨payloads, hpayloads, hc⟩ := bind_eq_ok_iff.1 h
    cases hc
    have hmem := SortedMap.mem_of_mem_sortEntries (SortedMap.mem_entries_iff.2 hp)
    obtain ⟨f, hf, hfp⟩ := (exists_of_mapM_ok hpayloads).2 _ hmem
    obtain ⟨q, hq, hfp⟩ := bind_eq_ok_iff.1 hfp
    cases hfp
    exact Payload.isValid_ofJson (hfs f hf) hq
  | _ => cases h

/-! ## Procedures -/

namespace Procedure

variable {ε ε' α β σ : Type}

/-- Whatever the requests are answered, a result satisfies `q`. -/
def Ensures (q : α → Prop) : Procedure ε α → Prop
  | done o => ∀ a, o = .ok a → q a
  | step _ next => ∀ answer, (next answer).Ensures q

variable {q : α → Prop} {p : Procedure ε α}

/-- What two procedures in a row ensure. -/
lemma Ensures.bind {q' : β → Prop} {f : α → Procedure ε β} (hp : p.Ensures q)
    (hf : ∀ a, q a → (f a).Ensures q') : (p >>= f).Ensures q' := by
  change (p.bind f).Ensures q'
  induction p with
  | done o =>
    cases o with
    | ok a => exact hf a (hp a rfl)
    | error e => exact fun b hb => by cases hb
  | step r next ih => exact fun answer => ih answer (hp answer)

/-- A function on the errors changes nothing that is ensured. -/
lemma Ensures.mapError (g : ε → ε') (hp : p.Ensures q) : (p.mapError g).Ensures q := by
  change (p.mapOutcome (Except.mapError g)).Ensures q
  induction p with
  | done o => exact fun a ha => hp a (mapError_eq_ok_iff.1 ha)
  | step r next ih => exact fun answer => ih answer (hp answer)

/-- Every procedure ensures what is always true. -/
lemma ensures_trivial (p : Procedure ε α) : p.Ensures fun _ => True := by
  induction p with
  | done o => exact fun _ _ => trivial
  | step r next ih => exact ih

/-- A procedure that has a result ensures what holds of it. -/
lemma ensures_pure {a : α} (h : q a) : (pure a : Procedure ε α).Ensures q := by
  intro b hb
  cases hb
  exact h

/-- A computation ensures what holds of its result. -/
lemma ensures_ofExcept {o : Except ε α} (h : ∀ a, o = .ok a → q a) :
    (ofExcept o : Procedure ε α).Ensures q := h

/-- A procedure that fails ensures everything. -/
lemma ensures_fail (e : ε) : (fail e : Procedure ε α).Ensures q := fun a ha => by cases ha

/-- The result of a run, no matter who answers. -/
theorem Ensures.of_run (hp : p.Ensures q) {answer : (r : Request) → σ → r.Answer × σ} {s : σ} {a : α}
    (h : (p.run answer s).1 = .ok a) : q a := by
  induction p generalizing s with
  | done o => exact hp a h
  | step r next ih => exact ih _ (hp _) h

end Procedure

/-! ## Replaying -/

namespace Storage

open Procedure

/-- A sound table that a valid payload extends is sound and keeps its name. -/
lemma isSound_extend {t t' : Table} {p : Payload} (ht : t.IsSound) (hp : p.IsValid)
    (h : extend t p = .ok t') : t'.name = t.name ∧ t'.IsSound := by
  simp only [extend, bind_eq_ok_iff] at h
  obtain ⟨rows, hrows, indexes, hindexes, ht'⟩ := h
  cases ht'
  refine ⟨rfl, ht.distinct, fun r hr => ?_⟩
  rcases List.mem_append.1 hr with hr | hr
  · rcases List.mem_append.1 hr with hr | hr
    · exact ht.row hr
    · exact Payload.isSound_of_decodeRows hp.1 hrows r hr
  · -- an index of the table is one of its own or one that comes with the payload
    obtain ⟨⟨k, ix⟩, hk, hr⟩ := Payload.mem_flatMap_rows_iff.1 hr
    have hget := SortedMap.mem_entries_iff.1 hk
    rw [SortedMap.get?_overlay, Option.or_eq_some_iff] at hget
    rcases hget with hget | ⟨-, hget⟩
    · exact Payload.isSound_of_decodeIndexes hp hindexes r
        (Payload.mem_flatMap_rows_iff.2 ⟨_, SortedMap.mem_entries_iff.2 hget, hr⟩)
    · exact ht.rows r (List.mem_append_right _
        (Payload.mem_flatMap_rows_iff.2 ⟨_, SortedMap.mem_entries_iff.2 hget, hr⟩))

/-- What has been replayed of a table, if anything has, is a sound table of its name. -/
def IsReplayed (table : String) (t : Option Table) : Prop :=
  ∀ u, t = some u → u.name = table ∧ u.IsSound

/-- A chunk leads from a replayed table to a replayed table. -/
lemma IsReplayed.replayChunk {table : String} {t t' : Option Table} {v : Json} {c : Chunk}
    (ht : IsReplayed table t) (hv : v.WellFormed) (hc : Chunk.ofJson v = .ok c)
    (h : replayChunk table t c = .ok t') : IsReplayed table t' := by
  simp only [Storage.replayChunk] at h
  split at h
  · cases h
    exact ht
  · rename_i p hp
    obtain ⟨u, hu, rfl⟩ := map_eq_ok_iff.1 h
    rintro w ⟨⟩
    exact Payload.isSound_of_toTable (Chunk.isValid_of_get? hv hc hp) hu
  · rename_i p t₀ hp
    obtain ⟨u, hu, rfl⟩ := map_eq_ok_iff.1 h
    obtain ⟨rfl, hsound⟩ := ht t₀ rfl
    rintro w ⟨⟩
    exact isSound_extend hsound (Chunk.isValid_of_get? hv hc hp) hu

/-- A document that is read is well-formed, whatever the store answers. -/
lemma ensures_get (a : Address) : (get a).Ensures Json.WellFormed := by
  refine (ensures_trivial _).bind fun content _ => ?_
  cases h : Json.parse? content with
  | some v => exact ensures_pure (Json.wellFormed_parse? h)
  | none => exact ensures_fail _

/-- Entries lead from a replayed table to a replayed table, whatever the store answers. -/
lemma ensures_replayEntries {table : String} {t : Option Table} (es : List HistoryEntry)
    (ht : IsReplayed table t) : (replayEntries table t es).Ensures (IsReplayed table) := by
  induction es generalizing t with
  | nil => exact ensures_pure ht
  | cons e es ih =>
    refine (ensures_get e.chunk).bind fun v hv => ?_
    have hchunk : (ofExcept (Chunk.ofJson v >>= replayChunk table t)).Ensures (IsReplayed table) :=
      ensures_ofExcept fun u hu => by
        obtain ⟨c, hc, hu⟩ := bind_eq_ok_iff.1 hu
        exact ht.replayChunk hv hc hu
    exact (hchunk.mapError .data).bind fun u => ih

/-- A table that is replayed is sound, whatever its chunks are. -/
theorem ensures_replay (table : String) (address : Address) :
    (replay table address).Ensures fun t => t.name = table ∧ t.IsSound := by
  refine (ensures_trivial (loadHistory address)).bind fun h _ => ?_
  refine (ensures_replayEntries h.entries fun u hu => by cases hu).bind fun t ht => ?_
  cases t with
  | some t => exact ensures_pure (ht t rfl)
  | none => exact ensures_fail _

end Storage

end ProvenTables
