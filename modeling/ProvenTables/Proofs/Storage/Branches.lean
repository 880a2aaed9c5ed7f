import ProvenTables.Proofs.Digest.Evaluation
import ProvenTables.Proofs.Storage.Addressing
import ProvenTables.Proofs.Storage.Decode

/-!
# Branching histories

Commits to one store, each behind an earlier one or behind none, so that histories branch. The address
that a commit returns stands for the commits on its own chain as long as the store grows: the table
under it has the rows of the chain one after the other and the latest index of each name
(`replay_of_chain`).
-/

namespace ProvenTables.Storage

open Procedure (reading? reading?_grows)

/-! ## Commits -/

/-- What a commit writes: a whole table, or rows or an index with the columns of a table. -/
inductive Part where
  | full (t : Table)
  | delta (t : Table) (rows : List Row)
  | index (t : Table) (name : String) (ix : Index)

namespace Part

/-- The payload of a part, as a chunk holds it. -/
def payload : Part → Payload
  | full t => .ofTable t
  | delta t rows => .ofRows t rows
  | index t name ix => .ofIndex t name ix

/-- The columns of a part. -/
def columns : Part → List Column
  | full t | delta t _ | index t _ _ => t.columns

/-- The rows that a part adds. -/
def rows : Part → List Row
  | full t => t.rows
  | delta _ rows => rows
  | index _ _ _ => []

/-- The indexes that a part adds. -/
def indexes : Part → SortedMap Index
  | full t => t.indexes
  | delta _ _ => .empty
  | index _ name ix => .insert .empty name ix

/-- The part as a table of its own. -/
def table (p : Part) (name : String) : Table := ⟨name, p.columns, p.rows, p.indexes⟩

/-- The payload of a part is that of the table with the part in it. -/
lemma payload_eq (p : Part) (name : String) : p.payload = .ofTable (p.table name) := by
  cases p <;> rfl

end Part

/-- A commit to the table of a name: behind the one with the number `parent`, counted from zero, or
behind none. -/
structure Write where
  table : String
  parent : Option ℕ
  part : Part

/-- A store with the addresses of the histories that its commits have returned. -/
structure Ledger where
  memory : Memory
  addresses : List Address

/-- What the commit behind which another is made has made, of what all have made. -/
def behind {α : Type} (fresh : α) (as : List α) (w : Write) : α := (w.parent.bind (as[·]?)).getD fresh

namespace Ledger

/-- The ledger without writes. -/
def empty : Ledger := ⟨.empty, []⟩

/-- The address behind which a commit is made. -/
def previous (l : Ledger) (w : Write) : Address := behind .sentinel l.addresses w

/-- The ledger after a write, which follows the history of the write that it names. -/
def write (l : Ledger) (w : Write) : Ledger :=
  match (commit w.table (l.previous w) w.part.payload).run Memory.answer l.memory with
  | (.ok c, m) => ⟨m, l.addresses ++ [c.history]⟩
  | (.error _, m) => ⟨m, l.addresses⟩

/-- The store after commits to an empty one. -/
def after (ws : List Write) : Ledger := ws.foldl write .empty

end Ledger

/-- The last write comes after the others. -/
lemma Ledger.after_append (ws : List Write) (w : Write) : after (ws ++ [w]) = (after ws).write w := by
  rw [after, List.foldl_append]
  rfl

/-- No commit takes an object away. -/
lemma Ledger.grows_after (ws later : List Write) :
    (after ws).memory.objects.Grows (after (ws ++ later)).memory.objects := by
  have hwrite : ∀ (l : Ledger) (w : Write), l.memory.objects.Grows (l.write w).memory.objects := by
    intro l w
    have hrun := Procedure.grows_run (commit w.table (l.previous w) w.part.payload) l.memory
    rw [write]
    split <;> rename_i heq <;> rwa [heq] at hrun
  induction later using List.reverseRecOn with
  | nil =>
    rw [List.append_nil]
    exact .refl _
  | append_singleton later w ih =>
    rw [← List.append_assoc, after_append]
    exact ih.trans (hwrite _ w)

/-! ## Chains -/

section Along

variable {α β : Type}

/-- What each commit makes of what the one before it has made. -/
def along (fresh : α) (next : α → Write → α) (ws : List Write) : List α :=
  ws.foldl (fun as w => as ++ [next (behind fresh as w) w]) []

/-- What a write makes of what is behind it is put at the end. -/
lemma along_append (fresh : α) (next : α → Write → α) (ws : List Write) (w : Write) :
    along fresh next (ws ++ [w]) =
      along fresh next ws ++ [next (behind fresh (along fresh next ws) w) w] := by
  rw [along, List.foldl_append]
  rfl

/-- There is one result for every write. -/
lemma length_along (fresh : α) (next : α → Write → α) (ws : List Write) :
    (along fresh next ws).length = ws.length := by
  induction ws using List.reverseRecOn with
  | nil => rfl
  | append_singleton ws w ih => simp [along_append, ih]

/-- The element at a place of the second list has a partner in the first. -/
lemma exists_of_getElem? {r : α → β → Prop} {as : List α} {bs : List β} {i : ℕ} {b : β}
    (h : List.Forall₂ r as bs) (hb : bs[i]? = some b) : ∃ a, as[i]? = some a ∧ r a b := by
  induction h generalizing i with
  | nil => cases hb
  | @cons a _ _ _ hr _ ih =>
    cases i with
    | zero =>
      cases hb
      exact ⟨a, rfl, hr⟩
    | succ i => exact ih hb

/-- What is behind a write in two related lists is related. -/
lemma behind_of_forall₂ {r : α → β → Prop} {as : List α} {bs : List β} {a : α} {b : β}
    (h : List.Forall₂ r as bs) (hfresh : r a b) (w : Write) : r (behind a as w) (behind b bs w) := by
  rw [behind, behind]
  cases w.parent with
  | none => exact hfresh
  | some i =>
    simp only [Option.bind_some]
    induction h generalizing i with
    | nil => exact hfresh
    | cons hr _ ih =>
      cases i with
      | zero => exact hr
      | succ i => exact ih i

end Along

/-- The commits that lead to each commit, from the first on, and the commit itself. -/
def chains (ws : List Write) : List (List Write) := along [] (fun chain w => chain ++ [w]) ws

/-- The histories that commits write. -/
def histories (ws : List Write) : List History :=
  along .empty (fun h w => extended w.table w.part.payload h) ws

/-- The history of the last write is the one behind it with one more chunk. -/
lemma histories_append (ws : List Write) (w : Write) :
    histories (ws ++ [w]) =
      histories ws ++ [extended w.table w.part.payload (behind .empty (histories ws) w)] :=
  along_append _ _ ws w

/-- The contents that commits write: each a chunk and a history. -/
def contents (ws : List Write) : List String :=
  (ws.zip (histories ws)).flatMap fun x =>
    [(Chunk.single x.1.table x.1.part.payload).toJson.canonical, x.2.toJson.canonical]

/-- The table of a chain: all rows one after the other, and the latest index of each name. -/
def tableOf (name : String) (columns : List Column) (chain : List Write) : Table where
  name := name
  columns := columns
  rows := chain.flatMap (·.part.rows)
  indexes := chain.foldl (fun indexes w => indexes.overlay w.part.indexes) .empty

/-- All commits of the chain are to one table, with the same columns and with rows that the columns can
hold, of which no timestamp has a signed year. -/
structure IsUniform (name : String) (columns : List Column) (chain : List Write) : Prop where
  distinct : (columns.map (·.name)).Nodup
  sameTable : ∀ w ∈ chain, w.table = name
  sameColumns : ∀ w ∈ chain, w.part.columns = columns
  rows : ∀ w ∈ chain, ∀ r ∈ (w.part.table name).allRows, r.IsSound columns ∧ r.IsDated

/-! ## Replaying chains -/

/-- What is replayed of a chain; there is no table without commits. -/
def replayed (name : String) (columns : List Column) (chain : List Write) : Option Table :=
  if chain = [] then none else some (tableOf name columns chain)

/-- A history stands for a chain: it is replayed to the table of the chain. -/
def StandsFor (o : Objects) (h : History) (chain : List Write) : Prop :=
  ∀ name columns, IsUniform name columns chain →
    (replayEntries name none h.entries).reading? o = some (.ok (replayed name columns chain))

variable {o o' : Objects} {h : History} {chain : List Write} {w : Write}

/-- The history without entries stands for no writes. -/
lemma standsFor_empty (o : Objects) : StandsFor o .empty [] := fun _ _ _ => rfl

/-- A history goes on to stand for its writes when objects are added. -/
lemma StandsFor.grows (hs : StandsFor o h chain) (hg : o.Grows o') : StandsFor o' h chain :=
  fun name columns hu => reading?_grows hg (hs name columns hu)

/-- One more part makes the table of the longer chain. -/
lemma add_part {name : String} {columns : List Column}
    (hu : IsUniform name columns (chain ++ [w])) :
    add name w.part.payload (replayed name columns chain) =
      .ok (tableOf name columns (chain ++ [w])) := by
  have hlast : w ∈ chain ++ [w] := List.mem_append_right _ List.mem_cons_self
  have hcolumns := hu.sameColumns w hlast
  have hsound : ∀ r ∈ (w.part.table name).allRows, r.IsSound columns :=
    fun r hr => (hu.rows w hlast r hr).1
  have hdated : (w.part.table name).IsDated := fun r hr => (hu.rows w hlast r hr).2
  rw [w.part.payload_eq name, replayed]
  split
  · -- the first part is a table of its own
    rename_i hnil
    have htable : (w.part.table name).IsSound := by
      refine ⟨?_, fun r hr => ?_⟩
      · rw [Table.columnNames, Part.table, hcolumns]
        exact firstRepeated?_eq_none_iff.2 hu.distinct
      · rw [Part.table, hcolumns]
        exact hsound r hr
    have hoverlay : SortedMap.overlay .empty w.part.indexes = w.part.indexes := by
      refine SortedMap.ext_get? fun k => ?_
      rw [SortedMap.get?_overlay, SortedMap.get?_empty, Option.or_none]
    refine ((Payload.toTable_ofTable htable).2 ⟨hdated, ?_⟩)
    simp [hnil, tableOf, Part.table, hcolumns, hoverlay]
  · refine (extend_ofTable (t := tableOf name columns chain) hsound).2 ⟨hdated, ?_⟩
    simp [tableOf, Part.table]

/-- A history that has one more chunk stands for one more write. -/
lemma standsFor_extended (hs : StandsFor o h chain)
    (hchunk : Stored o (Chunk.single w.table w.part.payload).toJson)
    (hhistory : Stored o (extended w.table w.part.payload h).toJson) :
    StandsFor o (extended w.table w.part.payload h) (chain ++ [w]) := by
  intro name columns hu
  have hbefore : IsUniform name columns chain :=
    ⟨hu.distinct, fun v hv => hu.sameTable v (List.mem_append_left _ hv),
      fun v hv => hu.sameColumns v (List.mem_append_left _ hv),
      fun v hv => hu.rows v (List.mem_append_left _ hv)⟩
  obtain rfl : w.table = name := hu.sameTable w (List.mem_append_right _ List.mem_cons_self)
  have hencoded : w.part.payload.IsEncoded := by
    rw [w.part.payload_eq w.table]
    exact Payload.isEncoded_ofTable _
  have hreplay := reading?_replay_record hencoded (hs _ columns hbefore) hchunk hhistory
  rw [add_part hu] at hreplay
  obtain ⟨g, hg, hentries⟩ := reading?_replay_eq_ok_iff.1 hreplay
  -- the history that has been read is the one that has been stored
  obtain rfl : extended w.table w.part.payload h = g :=
    Except.ok.inj (Option.some.inj ((reading?_loadHistory hhistory).symm.trans hg))
  rw [hentries, replayed, if_neg (by simp)]

/-! ## Runs -/

/-- The last write keeps its chunk and its history. -/
lemma contents_append (ws : List Write) (w : Write) :
    contents (ws ++ [w]) = contents ws ++
      [(Chunk.single w.table w.part.payload).toJson.canonical,
        (extended w.table w.part.payload
          (behind .empty (histories ws) w)).toJson.canonical] := by
  have hlength : ws.length = (histories ws).length := (length_along _ _ ws).symm
  rw [contents, histories_append, List.zip_append hlength, List.flatMap_append]
  rfl

namespace Ledger

/-- Every commit has returned the address of its history, which is stored and stands for its chain. -/
structure IsValid (contents : List String) (ws : List Write) (l : Ledger) : Prop where
  addressed : l.memory.objects.IsAddressed contents
  addresses : l.addresses = (histories ws).map fun h => Address.ofJson h.toJson
  stored : ∀ h ∈ histories ws, Stored l.memory.objects h.toJson
  replayed : List.Forall₂ (StandsFor l.memory.objects) (histories ws) (chains ws)

variable {contents : List String} {ws : List Write} {l : Ledger}

/-- The history behind which a commit is made can be read. -/
lemma reading?_previous (hl : l.IsValid contents ws) (w : Write) :
    (loadHistory (l.previous w)).reading? l.memory.objects =
      some (.ok (behind .empty (histories ws) w)) := by
  have hall : List.Forall₂ (fun a h => (loadHistory a).reading? l.memory.objects = some (.ok h))
      l.addresses (histories ws) := by
    rw [hl.addresses, List.forall₂_map_left_iff, List.forall₂_same]
    exact fun h hh => reading?_loadHistory (hl.stored h hh)
  exact behind_of_forall₂ hall rfl w

/-- A commit writes its chunk and its history, and what has been written stays. -/
lemma isValid_write (hl : l.IsValid contents ws) (hno : NoCollision contents)
    (hcontents : Storage.contents (ws ++ [w]) ⊆ contents) :
    (l.write w).IsValid contents (ws ++ [w]) := by
  obtain ⟨h, hh⟩ : ∃ h, h = behind .empty (histories ws) w := ⟨_, rfl⟩
  obtain ⟨p, hp⟩ : ∃ p, p = w.part.payload := ⟨_, rfl⟩
  rw [contents_append, ← hh, ← hp] at hcontents
  have hchunk : (Chunk.single w.table p).toJson.canonical ∈ contents := hcontents (by simp)
  have hhistory : (extended w.table p h).toJson.canonical ∈ contents := hcontents (by simp)
  have hwrite : l.write w = ⟨⟨committed l.memory.objects w.table p h, l.memory.registry⟩,
      l.addresses ++ [Address.ofJson (extended w.table p h).toJson]⟩ := by
    rw [write, ← hp, run_commit_eq w.table p (hh ▸ reading?_previous hl w)]
  have hgrows := grows_committed l.memory.objects w.table p h
  have haddressed := Objects.isAddressed_keep hl.addressed hchunk
  have hstored : Stored (committed l.memory.objects w.table p h) (extended w.table p h).toJson :=
    Objects.stored_put haddressed hno hhistory
  have hchunkStored : Stored (committed l.memory.objects w.table p h)
      (Chunk.single w.table p).toJson :=
    (Objects.stored_put hl.addressed hno hchunk).grows (Objects.grows_put _ _)
  have hhistories : histories (ws ++ [w]) = histories ws ++ [extended w.table p h] := by
    rw [histories_append, hh, hp]
  rw [hwrite]
  refine ⟨Objects.isAddressed_keep haddressed hhistory, ?_, ?_, ?_⟩
  · rw [hhistories, List.map_append, ← hl.addresses]
    rfl
  · rw [hhistories]
    refine List.forall_mem_append.2 ⟨fun g hg => (hl.stored g hg).grows hgrows, ?_⟩
    exact fun g hg => List.mem_singleton.1 hg ▸ hstored
  · rw [hhistories, chains, along_append]
    refine List.rel_append (hl.replayed.imp fun g c hg => hg.grows hgrows) (.cons ?_ .nil)
    -- the commit is behind a history that stands for the chain behind it
    have hbehind := behind_of_forall₂ hl.replayed (standsFor_empty _) w
    rw [← hh] at hbehind
    subst hp
    exact standsFor_extended (hbehind.grows hgrows) hchunkStored hstored

/-- After any writes the ledger is valid, if no contents collide. -/
lemma isValid_after (hno : NoCollision contents) (hcontents : Storage.contents ws ⊆ contents) :
    (after ws).IsValid contents ws := by
  induction ws using List.reverseRecOn with
  | nil =>
    refine ⟨fun k c hk => ?_, rfl, fun h hh => ?_, .nil⟩
    · cases hk
    · cases hh
  | append_singleton ws w ih =>
    have hbefore : Storage.contents ws ⊆ Storage.contents (ws ++ [w]) := by
      rw [contents_append]
      exact List.subset_append_left _ _
    rw [after_append]
    exact isValid_write (ih (List.Subset.trans hbefore hcontents)) hno hcontents

end Ledger

/-- The chain of a write is not empty. -/
lemma ne_nil_of_mem_chains {ws : List Write} {chain : List Write} (h : chain ∈ chains ws) :
    chain ≠ [] := by
  induction ws using List.reverseRecOn with
  | nil => cases h
  | append_singleton ws w ih =>
    rw [chains, along_append, List.mem_append, List.mem_singleton] at h
    rcases h with h | rfl
    · exact ih h
    · simp

/-- Every commit returns an address. If all commits of its chain are to one table, then from then on, and
whatever else is committed, the address is replayed to the table of the chain. -/
theorem replay_of_chain {ws : List Write} (hno : NoCollision (contents ws)) :
    (Ledger.after ws).addresses.length = ws.length ∧
      ∀ (i : ℕ) chain name columns, (chains ws)[i]? = some chain → IsUniform name columns chain →
        ∃ a, (Ledger.after ws).addresses[i]? = some a ∧ ∀ later,
          (replay name a).run Memory.answer (Ledger.after (ws ++ later)).memory =
            (.ok (tableOf name columns chain), (Ledger.after (ws ++ later)).memory) := by
  have hvalid := Ledger.isValid_after hno (List.Subset.refl _)
  refine ⟨by rw [hvalid.addresses, List.length_map, histories, length_along], ?_⟩
  intro i chain name columns hchain hu
  obtain ⟨h, hhistory, hstands⟩ := exists_of_getElem? hvalid.replayed hchain
  have hstored := hvalid.stored h (List.mem_of_getElem? hhistory)
  refine ⟨Address.ofJson h.toJson, ?_, fun later => ?_⟩
  · rw [hvalid.addresses, List.getElem?_map, hhistory]
    rfl
  · have hreplay : (replay name (Address.ofJson h.toJson)).reading?
        (Ledger.after ws).memory.objects = some (.ok (tableOf name columns chain)) := by
      refine reading?_replay_eq_ok_iff.2 ⟨h, reading?_loadHistory hstored, ?_⟩
      rw [hstands name columns hu, replayed, if_neg (ne_nil_of_mem_chains (List.mem_of_getElem? hchain))]
    exact Procedure.run_of_reading? (reading?_grows (Ledger.grows_after ws later) hreplay)

/-! ## Twins -/

/-- A table of texts without rows. -/
def lines : Table := ⟨"lines", [⟨"text", .string⟩], [], .empty⟩

/-- The table is written in full. -/
def first : Write := ⟨"lines", none, .full lines⟩

/-- A row is written after the first write. -/
def second : Write := ⟨"lines", some 0, .delta lines [[.string "once"]]⟩

/-- A table without rows, and behind it the same commit twice. -/
def twins : List Write := [first, second, second]

/-- The address of the chunk of a commit, and the digest of its payload. -/
def Write.Writes (w : Write) (chunk : Address) (digest : String) : Prop :=
  Address.ofJson (Chunk.single w.table w.part.payload).toJson = chunk ∧
    (Address.ofJson w.part.payload.toJson).text = digest

/-- What the first write keeps has these digests. -/
lemma writes_first : first.Writes
    ⟨"d6901905553ca27e69da552af044b6ae79ffd8e7992f964fbe6bb80c406c9215"⟩
    "76d4b826b4f17e2734f9d7a20e38a792676e50ad9f1563f32668f84cc58297ee" := by
  rw [Write.Writes, Address.ofJson_eq, Address.ofJson_eq]
  decide +kernel

/-- What the second write keeps has these digests. -/
lemma writes_second : second.Writes
    ⟨"5e541f841bf5842011a957fb278ddb2876976cf060b112517b28c457c73c9ae4"⟩
    "73630f94832f87897a7c75fd221fdfaebe5b29027e4b43db8adc9ac9f733f785" := by
  rw [Write.Writes, Address.ofJson_eq, Address.ofJson_eq]
  decide +kernel

/-- The contents of the two writes have these addresses. -/
lemma addresses_twins : (contents [first, second]).map Address.ofText =
    [⟨"d6901905553ca27e69da552af044b6ae79ffd8e7992f964fbe6bb80c406c9215"⟩,
      ⟨"88e94ca2efef0338654118da3b37ea290f2239217f9f695bc52e5f4a80cf7dad"⟩,
      ⟨"5e541f841bf5842011a957fb278ddb2876976cf060b112517b28c457c73c9ae4"⟩,
      ⟨"e14c367d106b5961aac16017ddd753215c9a56eac12f46edcb8e64f97b8e0868"⟩] := by
  have hcontents : (contents [first, second]).map Address.ofText =
      [Address.ofJson (Chunk.single first.table first.part.payload).toJson,
        Address.ofJson (extended first.table first.part.payload .empty).toJson,
        Address.ofJson (Chunk.single second.table second.part.payload).toJson,
        Address.ofJson (extended second.table second.part.payload
          (extended first.table first.part.payload .empty)).toJson] := rfl
  obtain ⟨hfirst, hfirstDigest⟩ := writes_first
  obtain ⟨hsecond, hsecondDigest⟩ := writes_second
  rw [hcontents, extended_eq hfirst hfirstDigest, extended_eq hsecond hsecondDigest, hfirst, hsecond]
  simp only [Address.ofJson_eq]
  decide +kernel

/-- The contents of two writes that agree and one before them do not collide. -/
lemma noCollision_twins : NoCollision (contents twins) := by
  have hno : NoCollision (contents [first, second]) := by
    refine noCollision_of_nodup ?_
    rw [addresses_twins]
    decide
  refine hno.mono fun c hc => ?_
  -- the second twin writes what the first one has written
  rw [show twins = [first, second] ++ [second] from rfl, contents_append] at hc
  rcases List.mem_append.1 hc with hc | hc
  · exact hc
  · exact List.mem_append_right _ hc

/-- Both writes are of one table with the same columns. -/
lemma isUniform_twins : IsUniform "lines" lines.columns [first, second] := by
  refine ⟨by decide, ?_, ?_, ?_⟩ <;> intro w hw <;>
    simp only [List.mem_cons, List.not_mem_nil, or_false] at hw
  · rcases hw with rfl | rfl <;> rfl
  · rcases hw with rfl | rfl <;> rfl
  · rcases hw with rfl | rfl
    · exact fun r hr => by cases hr
    · intro r hr
      cases List.mem_singleton.1 hr
      exact ⟨⟨rfl, by simp [Row.IsFinite, Scalar.IsFinite]⟩, by decide⟩

/-- The same commit made twice behind a table has one address, under which its row is there once, whatever
is committed later. -/
theorem replay_of_chain_twins :
    NoCollision (contents twins) ∧ ∃ a b, (Ledger.after twins).addresses[1]? = some a ∧
      (Ledger.after twins).addresses[2]? = some b ∧ ∀ later,
        ((replay "lines" a).run Memory.answer (Ledger.after (twins ++ later)).memory).1 =
          .ok { lines with rows := [[.string "once"]] } ∧
        ((replay "lines" b).run Memory.answer (Ledger.after (twins ++ later)).memory).1 =
          .ok { lines with rows := [[.string "once"]] } := by
  obtain ⟨-, hreplay⟩ := replay_of_chain noCollision_twins
  obtain ⟨a, ha, hfirst⟩ := hreplay 1 [first, second] "lines" lines.columns rfl isUniform_twins
  obtain ⟨b, hb, hsecond⟩ := hreplay 2 [first, second] "lines" lines.columns rfl isUniform_twins
  refine ⟨noCollision_twins, a, b, ha, hb, fun later => ⟨?_, ?_⟩⟩
  · rw [hfirst later]
    rfl
  · rw [hsecond later]
    rfl

end ProvenTables.Storage
