import ProvenTables.Proofs.Database.Interference

/-!
# Trails of chunks

What a registered address leads to: a history whose chunks are there, each with one payload, of the
table that is registered and with the same columns as the others. A commit behind such a history leads to a
longer one, and this stays so as the store grows.
-/

namespace ProvenTables

/-! ## Columns of payloads -/

namespace Payload

/-- The columns of the payload and their types are those of a table. -/
structure HasColumns (p : Payload) (columns : List Column) : Prop where
  names : p.columns = columns.map (·.name)
  types : p.types = .ofList (columns.map fun c => (c.name, c.type))

/-- The payload of a table has its columns. -/
lemma hasColumns_ofTable (t : Table) : (ofTable t).HasColumns t.columns := ⟨rfl, rfl⟩

/-- The table of a payload has the columns of the payload. -/
lemma HasColumns.columns_of_toTable {p : Payload} {columns : List Column} {name : String} {t : Table}
    (h : p.HasColumns columns) (hdistinct : (columns.map (·.name)).Nodup)
    (ht : p.toTable name = .ok t) : t.columns = columns := by
  have hschema := schema_ofColumns hdistinct h.names h.types
  simp only [toTable, bind_eq_ok_iff, mapError_eq_ok_iff, hschema, Except.ok.injEq,
    exists_eq_left'] at ht
  obtain ⟨u, hu, rows, -, indexes, -, ht⟩ := ht
  cases ht
  rw [Table.create, firstRepeated?_eq_none_iff.2 hdistinct] at hu
  cases hu
  rfl

end Payload

/-- The payload of an addition has the columns of the table. -/
lemma Database.Addition.hasColumns_payload (t : Table) (a : Addition) :
    (a.payload t).HasColumns t.columns := by
  cases a <;> exact ⟨rfl, rfl⟩

/-- Extending a table keeps its columns. -/
lemma Storage.columns_extend {t u : Table} {p : Payload} (h : extend t p = .ok u) :
    u.columns = t.columns := by
  simp only [extend, bind_eq_ok_iff] at h
  obtain ⟨rows, -, indexes, -, hu⟩ := h
  cases hu
  rfl

namespace Database

open Storage
open Procedure (Reads reads_pure reads_fail reading?)

/-! ## Trails -/

/-- A memory, and the contents that its registrations are based on. -/
structure Basis where
  memory : Memory
  used : List String

namespace Basis

/-- What others may add. -/
structure Le (b b' : Basis) : Prop where
  objects : b.memory.objects.Grows b'.memory.objects
  used : b.used ⊆ b'.used

variable {b b' b'' : Basis}

/-- A basis is as far as itself. -/
lemma Le.refl (b : Basis) : b.Le b := ⟨.refl _, List.Subset.refl _⟩

/-- A basis that is further than one that is further is further. -/
lemma Le.trans (h : b.Le b') (h' : b'.Le b'') : b.Le b'' :=
  ⟨h.objects.trans h'.objects, List.Subset.trans h.used h'.used⟩

/-- A basis is further with more contents that are used. -/
lemma Le.append (h : b.Le b') (kept : List String) : b.Le ⟨b'.memory, b'.used ++ kept⟩ :=
  ⟨h.objects, List.Subset.trans h.used (List.subset_append_left _ _)⟩

/-- A basis stays further when both use the same contents more. -/
lemma Le.append_append (h : b.Le b') (kept : List String) :
    Le ⟨b.memory, b.used ++ kept⟩ ⟨b'.memory, b'.used ++ kept⟩ :=
  ⟨h.objects, List.append_subset.2 ⟨(h.append kept).used, List.subset_append_right _ _⟩⟩

/-- The value is stored, and its text is one of the contents. -/
structure Uses (b : Basis) (v : Json) : Prop where
  stored : Stored b.memory.objects v
  used : v.canonical ∈ b.used

/-- A content that is used is used on every later basis. -/
lemma Uses.mono {v : Json} (h : b.Uses v) (hle : b.Le b') : b'.Uses v :=
  ⟨h.stored.grows hle.objects, hle.used h.used⟩

/-- Every entry is that of a chunk of the table alone, of a payload with the columns. -/
def HasChunks (b : Basis) (table : String) (columns : List Column) (es : List HistoryEntry) : Prop :=
  ∀ e ∈ es, ∃ p : Payload, p.HasColumns columns ∧ p.IsEncoded ∧
    e.chunk = Address.ofJson (Chunk.single table p).toJson ∧ b.Uses (Chunk.single table p).toJson

/-- Chunks that are used are used on every later basis. -/
lemma HasChunks.mono {table : String} {columns : List Column} {es : List HistoryEntry}
    (h : b.HasChunks table columns es) (hle : b.Le b') : b'.HasChunks table columns es := by
  intro e he
  obtain ⟨p, hcolumns, hencoded, haddress, huses⟩ := h e he
  exact ⟨p, hcolumns, hencoded, haddress, huses.mono hle⟩

/-- The address leads to a history of chunks of the table. -/
structure Leads (b : Basis) (table : String) (a : Address) (columns : List Column) (h : History) :
    Prop where
  address : a = Address.ofJson h.toJson
  nonempty : h.entries ≠ []
  distinct : (columns.map (·.name)).Nodup
  uses : b.Uses h.toJson
  chunks : b.HasChunks table columns h.entries

/-- An address leads to its history on every later basis. -/
lemma Leads.mono {table : String} {a : Address} {columns : List Column} {h : History}
    (hl : b.Leads table a columns h) (hle : b.Le b') : b'.Leads table a columns h :=
  ⟨hl.address, hl.nonempty, hl.distinct, hl.uses.mono hle, hl.chunks.mono hle⟩

/-- The objects are under their addresses, and every registration leads to a history of its table. -/
structure IsValid (contents : List String) (b : Basis) : Prop where
  addressed : b.memory.objects.IsAddressed contents
  leads : ∀ name p, b.memory.registry.pointer? name = some p →
    p.table = name ∧ ∃ columns h, b.Leads name p.address columns h

variable {contents : List String} {table : String} {columns : List Column} {h : History}

/-! ## Reading along trails -/

/-- A history that is used is loaded. -/
lemma reads_loadHistory (hu : b.Uses h.toJson) :
    (loadHistory (Address.ofJson h.toJson)).Reads b.memory.objects (· = h) :=
  ⟨.ok h, reading?_loadHistory hu.stored, fun _ hg => (Except.ok.inj hg).symm⟩

/-- Chunks that are used are replayed to a table with their columns. -/
lemma reads_replayEntries {es : List HistoryEntry} {t : Option Table}
    (hdistinct : (columns.map (·.name)).Nodup) (hes : b.HasChunks table columns es)
    (ht : ∀ u, t = some u → u.columns = columns) :
    (replayEntries table t es).Reads b.memory.objects fun r => ∀ u, r = some u → u.columns = columns := by
  -- the first payload creates the table with these columns, and the others extend it
  induction es generalizing t with
  | nil => exact reads_pure ht
  | cons e es ih =>
    obtain ⟨⟨p, hcolumns, hencoded, haddress, huses⟩, hrest⟩ := List.forall_mem_cons.1 hes
    have hget : (get e.chunk).Reads b.memory.objects (· = (Chunk.single table p).toJson) := by
      refine ⟨.ok _, haddress ▸ reading?_get (Chunk.isCanonical_toJson_single hencoded) (by decide)
        huses.stored, fun _ hv => (Except.ok.inj hv).symm⟩
    refine hget.bind fun v hv => ?_
    have hchunk : ((Procedure.ofExcept (Chunk.ofJson v >>= replayChunk table t)).mapError
        StorageError.data).Reads b.memory.objects fun r => ∀ u, r = some u → u.columns = columns := by
      refine ⟨_, rfl, fun r hr => ?_⟩
      obtain ⟨c, hc, hreplay⟩ := bind_eq_ok_iff.1 (mapError_eq_ok_iff.1 hr)
      rw [hv, Chunk.ofJson_toJson_single hencoded] at hc
      cases hc
      have hpayload : (Chunk.single table p).get? table = some p := by simp [Chunk.single]
      rintro u rfl
      unfold replayChunk at hreplay
      rw [hpayload] at hreplay
      cases t with
      | none =>
        obtain ⟨w, hw, heq⟩ := map_eq_ok_iff.1 hreplay
        cases heq
        exact hcolumns.columns_of_toTable hdistinct hw
      | some s =>
        obtain ⟨w, hw, heq⟩ := map_eq_ok_iff.1 hreplay
        cases heq
        exact (columns_extend hw).trans (ht s rfl)
    exact hchunk.bind fun t ht => ih hrest ht

/-- What an address leads to can be replayed, and a table that is replayed has the columns. -/
lemma Leads.reads_replay {a : Address} (hl : b.Leads table a columns h) :
    (replay table a).Reads b.memory.objects fun t => t.columns = columns := by
  rw [hl.address]
  refine (reads_loadHistory hl.uses).bind fun g hg => ?_
  rw [hg]
  refine (reads_replayEntries hl.distinct hl.chunks fun u hu => by cases hu).bind fun t ht => ?_
  cases t with
  | none => exact reads_fail
  | some t => exact reads_pure (ht t rfl)

/-! ## Writing trails -/

/-- A commit behind a history of the table leads to a longer one. -/
lemma leads_extended {p : Payload} (hdistinct : (columns.map (·.name)).Nodup)
    (hes : b.HasChunks table columns h.entries) (hcolumns : p.HasColumns columns)
    (hencoded : p.IsEncoded) (hchunk : b.Uses (Chunk.single table p).toJson)
    (hhistory : b.Uses (extended table p h).toJson) :
    b.Leads table (Address.ofJson (extended table p h).toJson) columns (extended table p h) where
  address := rfl
  nonempty := by simp [extended, History.record]
  distinct := hdistinct
  uses := hhistory
  chunks := by
    intro e he
    rcases List.mem_append.1 he with he | he
    · exact hes e he
    · rw [List.mem_singleton.1 he]
      exact ⟨p, hcolumns, hencoded, rfl, hchunk⟩

/-- Keeping a content under its address leaves the basis valid. -/
lemma isValid_keep (hb : b.IsValid contents) {c : String} (hc : c ∈ contents) :
    IsValid contents
      ⟨{ b.memory with objects := b.memory.objects.keep (Address.ofText c) c }, b.used⟩ where
  addressed := Objects.isAddressed_keep hb.addressed hc
  leads name p hp := by
    obtain ⟨hname, columns, h, hl⟩ := hb.leads name p hp
    exact ⟨hname, columns, h, hl.mono ⟨b.memory.objects.grows_keep _ c, List.Subset.refl _⟩⟩

/-- A basis stays valid when more contents are used. -/
lemma IsValid.mono {used : List String} (hb : b.IsValid contents) (hused : b.used ⊆ used) :
    IsValid contents ⟨b.memory, used⟩ where
  addressed := hb.addressed
  leads name p hp := by
    obtain ⟨hname, columns, h, hl⟩ := hb.leads name p hp
    exact ⟨hname, columns, h, hl.mono ⟨.refl _, hused⟩⟩

/-- A table is registered or moved to what leads to a history of it. -/
lemma isValid_move {r : Registry} {p : Pointer} (hb : b.IsValid contents)
    (hr : b.memory.registry.Moves r p) (hp : ∃ columns h, b.Leads p.table p.address columns h) :
    IsValid contents ⟨{ b.memory with registry := r }, b.used⟩ where
  addressed := hb.addressed
  leads name q hq := by
    rw [hr name] at hq
    split at hq
    · rename_i hname
      cases hq
      subst hname
      obtain ⟨columns, h, hl⟩ := hp
      exact ⟨rfl, columns, h, hl.mono ⟨.refl _, List.Subset.refl _⟩⟩
    · obtain ⟨hname, columns, h, hl⟩ := hb.leads name q hq
      exact ⟨hname, columns, h, hl.mono ⟨.refl _, List.Subset.refl _⟩⟩

end Basis

end Database

end ProvenTables
