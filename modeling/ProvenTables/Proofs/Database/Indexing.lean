import ProvenTables.Proofs.Database.Searching
import ProvenTables.Proofs.Query.Snapshots

/-!
# Indexes of loaded tables

An index is stored with the rows that its table has when it is defined. What is stored later adds rows to the
table and leaves the index as it is, unless it defines one of the same name. So an index of a table that loads
is the snapshot of the table at the last definition, and an answer from it shows nothing that came later.
-/

namespace ProvenTables

/-- What a table becomes while nothing defines an index of the name. -/
structure Table.Continues (index : String) (t u : Table) : Prop where
  columns : t.columns = u.columns
  rows : t.rows <+: u.rows
  index : u.indexes.get? index = t.indexes.get? index

namespace Table.Continues

variable {index : String} {t u v : Table}

/-- A table goes on from itself. -/
lemma refl (index : String) (t : Table) : t.Continues index t := ⟨rfl, List.prefix_refl _, rfl⟩

/-- A table that goes on from one that goes on from another goes on from that. -/
lemma trans (h : t.Continues index u) (h' : u.Continues index v) : t.Continues index v :=
  ⟨h.columns.trans h'.columns, h.rows.trans h'.rows, h'.index.trans h.index⟩

end Table.Continues

/-! ## Payloads without an index -/

namespace Payload

variable {p : Payload} {index : String}

/-- A payload without an index of a name is decoded without one. -/
lemma get?_decodeIndexes {columns : List Column} {m : SortedMap Index}
    (h : p.decodeIndexes columns = .ok m) (hp : p.indexes.get? index = none) : m.get? index = none := by
  obtain ⟨is, his, hm⟩ := bind_eq_ok_iff.1 h
  cases hm
  by_contra hsome
  obtain ⟨ix, hix⟩ := Option.ne_none_iff_exists'.1 hsome
  have hmem := SortedMap.mem_of_mem_sortEntries (SortedMap.mem_entries_iff.2 hix)
  obtain ⟨⟨k, buckets⟩, hk, hdecode⟩ := (exists_of_mapM_ok his).2 _ hmem
  obtain ⟨ix', -, hentry⟩ := bind_eq_ok_iff.1 hdecode
  cases hentry
  cases hp.symm.trans (SortedMap.mem_entries_iff.1 hk)

/-- The table of a payload without an index of a name has none. -/
lemma get?_indexes_of_toTable {name : String} {t : Table} (h : p.toTable name = .ok t)
    (hp : p.indexes.get? index = none) : t.indexes.get? index = none := by
  simp only [toTable, bind_eq_ok_iff] at h
  obtain ⟨columns, -, u, -, rows, -, indexes, hindexes, ht⟩ := h
  cases ht
  exact get?_decodeIndexes hindexes hp

end Payload

/-- A payload without an index of the name leaves that of a table. -/
lemma Storage.continues_of_extend {t u : Table} {p : Payload} {index : String}
    (h : extend t p = .ok u) (hp : p.indexes.get? index = none) : t.Continues index u := by
  simp only [extend, bind_eq_ok_iff] at h
  obtain ⟨rows, -, indexes, hindexes, hu⟩ := h
  cases hu
  refine ⟨rfl, List.prefix_append _ _, ?_⟩
  rw [SortedMap.get?_overlay, Payload.get?_decodeIndexes hindexes hp, Option.none_or]

namespace Database

open Sql Storage
open Query (IsSnapshot cell?)

/-! ## Mutations that define an index -/

/-- Whether a mutation gives its table an index of a name. -/
def Mutation.Defines (index : String) : Mutation → Prop
  | .create t => t.indexes.get? index ≠ none
  | .rows _ => False
  | .index name _ => name = index

/-- A mutation that does not define an index has no payload with one. -/
lemma get?_indexes_of_payload? {μ : Mutation} {index : String} {t : Option Table} {p : Payload}
    (hp : μ.payload? t = some p) (h : ¬μ.Defines index) : p.indexes.get? index = none := by
  cases μ with
  | create u =>
    cases hp
    have hnone : u.indexes.get? index = none := not_not.1 h
    rw [Payload.ofTable, SortedMap.get?_map, hnone, Option.map_none]
  | rows rs =>
    obtain ⟨u, -, rfl⟩ := Option.map_eq_some_iff.1 hp
    rfl
  | index name column =>
    simp only [Mutation.payload?, Option.bind_eq_bind, Option.bind_eq_some_iff] at hp
    obtain ⟨u, -, i, -, hp⟩ := hp
    cases hp
    exact (SortedMap.get?_insert _ _ _ _).trans (if_neg h)

/-- What happens to the table of a line while nothing defines an index of the name. -/
structure Line.Keeps (index : String) (l l' : Line) : Prop where
  /-- A table that loads continues one that has loaded, or it is new and has no such index. -/
  loaded : ∀ u, l'.table = some (.ok u) →
    (∃ t, l.table = some (.ok t) ∧ t.Continues index u) ∨ l.table = none ∧ u.indexes.get? index = none
  absent : l'.table = none → l.table = none

namespace Line.Keeps

variable {index : String} {l l' l'' : Line}

/-- A line keeps the index to itself. -/
lemma refl (index : String) (l : Line) : l.Keeps index l :=
  ⟨fun u hu => .inl ⟨u, hu, .refl index u⟩, id⟩

/-- A line that keeps what a kept line has keeps it. -/
lemma trans (h : l.Keeps index l') (h' : l'.Keeps index l'') : l.Keeps index l'' where
  loaded v hv := by
    rcases h'.loaded v hv with ⟨u, hu, huv⟩ | ⟨habsent, hnone⟩
    · rcases h.loaded u hu with ⟨t, ht, htu⟩ | ⟨habsent, hnone⟩
      · exact .inl ⟨t, ht, htu.trans huv⟩
      · exact .inr ⟨habsent, huv.index.trans hnone⟩
    · exact .inr ⟨h.absent habsent, hnone⟩
  absent hl := h.absent (h'.absent hl)

end Line.Keeps

section Runs

variable {ops : List Operation} {op : Operation} {m : Memory} {name index : String} {l : Line} {μ : Mutation}

/-- A mutation that does not define the index keeps it. -/
lemma keeps_apply (hl : ∀ e, l.table ≠ some (.error e)) (h : ¬μ.Defines index) :
    l.Keeps index (μ.apply name l) := by
  rw [Mutation.apply]
  cases hp : μ.payload? l.present? with
  | none => exact .refl index l
  | some p =>
    have hindex := get?_indexes_of_payload? hp h
    refine ⟨fun u hu => ?_, fun hnone => absurd hnone (Option.some_ne_none _)⟩
    have hadd := mapError_eq_ok_iff.1 (Option.some.inj hu)
    cases ht : l.table with
    | none =>
      rw [Line.present?, ht] at hadd
      exact .inr ⟨rfl, Payload.get?_indexes_of_toTable hadd hindex⟩
    | some o =>
      cases o with
      | error e => exact absurd ht (hl e)
      | ok t =>
        rw [Line.present?, ht] at hadd
        exact .inl ⟨t, rfl, continues_of_extend hadd hindex⟩

/-- No mutation is made of a table that cannot be loaded. -/
lemma table_of_made (hm : Follows m name l) (h : op.made name m = some μ) (e : StorageError) :
    l.table ≠ some (.error e) := by
  cases hc : op.effect.change? with
  | none => cases (made_of_others (fun c h => by cases hc.symm.trans h) m).symm.trans h
  | some c =>
    obtain ⟨seen, he⟩ := Effect.change?_eq_some_iff.1 hc
    rw [Operation.made] at h
    split at h
    · rename_i hmade
      obtain ⟨htable, hok⟩ := hmade
      rw [Operation.table?, he] at htable
      cases htable
      obtain ⟨d, hd⟩ := exists_deed_of_isOk he hm hok
      exact Change.table_of_deed hd e
    · cases h

/-- Operations that do not define an index of a table keep the one that it has. -/
theorem keeps_lineage {later : List Operation} (hno : NoCollision (written (ops ++ later)))
    (h : ∀ μ ∈ mutationsFrom name (memoryAfter ops) later, ¬μ.Defines index) :
    (lineage name (mutations name ops)).Keeps index (lineage name (mutations name (ops ++ later))) := by
  induction later generalizing ops with
  | nil =>
    rw [List.append_nil]
    exact .refl index _
  | cons op later ih =>
    rw [List.append_cons] at hno ⊢
    rw [mutationsFrom, ← memoryAfter_append, List.forall_mem_append] at h
    have hops : NoCollision (written ops) :=
      hno.mono (written_subset ((List.prefix_append ops [op]).trans (List.prefix_append _ later)))
    refine Line.Keeps.trans ?_ (ih hno h.2)
    rw [lineage_append]
    cases hmade : op.made name (memoryAfter ops) with
    | none => exact .refl index _
    | some μ =>
      rw [hmade] at h
      exact keeps_apply (table_of_made (follows_lineage hops name) hmade) (h.1 μ (List.mem_singleton.2 rfl))

end Runs

/-! ## Indexes of tables that load -/

section Loads

variable {ops before later : List Operation} {prover : Option Prover} {sql name index : String}
  {s : CreateIndex} {t u : Table}

/-- A table that is loaded after operations is the one of its lineage. -/
lemma table_lineage (hno : NoCollision (written ops)) (h : load (memoryAfter ops) name = .ok t) :
    (lineage name (mutations name ops)).table = some (.ok t) :=
  Line.load_eq_ok_iff.1 ((follows_lineage hno name).load_eq.symm.trans h)

/-- A table has no index of a name if nothing has defined one. -/
lemma get?_indexes_of_load (hno : NoCollision (written ops))
    (h : ∀ μ ∈ mutations name ops, ¬μ.Defines index) (hload : load (memoryAfter ops) name = .ok u) :
    u.indexes.get? index = none := by
  have hkeeps : (lineage name (mutations name [])).Keeps index (lineage name (mutations name ([] ++ ops))) :=
    keeps_lineage hno h
  rcases hkeeps.loaded u (table_lineage hno hload) with ⟨t, ht, -⟩ | ⟨-, hnone⟩
  · cases ht
  · exact hnone

/-- The index of a definition is the one that is built over its column. -/
lemma newIndex_eq_ok_iff {ix : Index} : newIndex t s = .ok ix ↔
    ∃ i, t.position? s.column = some i ∧ Index.build t.rows i = ix := by
  rw [newIndex]
  cases t.position? s.column <;> simp

/-- A table that loads has an index as it was built when the index was last defined. -/
theorem exists_index_of_load (hno : NoCollision (written (before ++ .execute prover sql :: later)))
    (hsql : parse sql = .ok (.createIndex s))
    (hok : ((Operation.execute prover sql).run (memoryAfter before)).1.isOk = true)
    (h : ∀ μ ∈ mutationsFrom s.table (memoryAfter (before ++ [.execute prover sql])) later,
      ¬μ.Defines s.index)
    (hload : load (memoryAfter (before ++ .execute prover sql :: later)) s.table = .ok u) :
    ∃ t i, load (memoryAfter before) s.table = .ok t ∧ t.position? s.column = some i ∧
      t.columns = u.columns ∧ t.rows <+: u.rows ∧
      u.indexes.get? s.index = some (Index.build t.rows i) := by
  have hbefore : NoCollision (written before) := hno.mono (written_subset (List.prefix_append _ _))
  have hfollows := follows_lineage hbefore s.table
  have he : (Operation.execute prover sql).effect =
      .change (.alter s.table fun t => Addition.index s.index <$> newIndex t s) changedAnswer :=
    effect_execute prover hsql
  -- the table loads when the index is defined, and has the column
  obtain ⟨d, hd, hpush⟩ := exists_lineage_of_isOk he hbefore hok
  simp only [Change.table] at hd hpush
  obtain ⟨t, a, ht, ha, rfl⟩ := Change.deed_alter_eq_ok_iff.1 hd
  obtain ⟨ix, hix, rfl⟩ := map_eq_ok_iff.1 ha
  obtain ⟨i, hi, rfl⟩ := newIndex_eq_ok_iff.1 hix
  have ht' : load (memoryAfter before) s.table = .ok t := hfollows.load_eq.trans ht
  have hsound := (isSound_of_isClosed (isClosed_memoryAfter before) ht').2
  refine ⟨t, i, ht', hi, ?_⟩
  rw [List.append_cons] at hno hload
  have hkeeps := keeps_lineage hno h
  rw [hpush] at hkeeps
  rcases hkeeps.loaded u (table_lineage hno hload) with ⟨v, hv, hvu⟩ | ⟨habsent, -⟩
  · have hextend := mapError_eq_ok_iff.1 (Option.some.inj hv)
    rw [Line.present?_of_load ht] at hextend
    obtain ⟨-, rfl⟩ := (extend_ofIndex fun r hr => hsound.row (Index.mem_rows_build hr)).1 hextend
    refine ⟨hvu.columns, hvu.rows, hvu.index.trans ?_⟩
    rw [SortedMap.get?_insert, if_pos rfl]
  · cases habsent

end Loads

/-! ## Definitions by statements -/

/-- A mutation of a table is made by one of the operations, after those before it. -/
lemma exists_made_of_mem {ops : List Operation} {name : String} {μ : Mutation} {m : Memory}
    (h : μ ∈ mutationsFrom name m ops) : ∃ before op later, ops = before ++ op :: later ∧
      op.made name (before.foldl (fun m op => (op.run m).2) m) = some μ := by
  induction ops generalizing m with
  | nil => cases h
  | cons op ops ih =>
    rw [mutationsFrom, List.mem_append] at h
    rcases h with h | h
    · exact ⟨[], op, ops, rfl, Option.mem_toList.1 h⟩
    · obtain ⟨before, op', later, rfl, hmade⟩ := ih h
      exact ⟨op :: before, op', later, rfl, hmade⟩

/-- A table that is defined has no indexes. -/
lemma indexes_newTable {s : CreateTable} {t : Table} (h : newTable s = .ok t) : t.indexes = .empty := by
  rw [newTable, mapError_eq_ok_iff, Table.create] at h
  split at h
  · cases h
  · cases h
    rfl

/-- Of the statements, only those that create an index of the name define it, if they succeed. -/
lemma exists_createIndex_of_made {prover : Option Prover} {sql name index : String} {μ : Mutation}
    {m : Memory} (h : (Operation.execute prover sql).made name m = some μ) (hμ : μ.Defines index) :
    (∃ s : CreateIndex, parse sql = .ok (.createIndex s) ∧ s.table = name ∧ s.index = index) ∧
      ((Operation.execute prover sql).run m).1.isOk = true := by
  rw [Operation.made] at h
  split at h
  · rename_i hmade
    refine ⟨?_, hmade.2⟩
    obtain ⟨s, hs, hmutation⟩ := Option.bind_eq_some_iff.1 h
    have hparse := toOption_eq_some_iff.1 hs
    cases s with
    | createTable s =>
      obtain ⟨t, ht, rfl⟩ := Option.map_eq_some_iff.1 hmutation
      rw [Mutation.Defines, indexes_newTable (toOption_eq_some_iff.1 ht)] at hμ
      exact absurd rfl hμ
    | createIndex s =>
      cases hmutation
      have htable := hmade.1
      rw [Operation.table?, effect_execute prover hparse] at htable
      exact ⟨s, hparse, Option.some.inj htable, hμ⟩
    | insert s =>
      simp only [mutationOfStatement?, Option.bind_eq_bind, Option.bind_eq_some_iff] at hmutation
      obtain ⟨t, -, rows, -, h⟩ := hmutation
      cases h
      cases hμ
    | select s => cases hmutation
  · cases h

/-- Statements define no index of a name if those that would create it do not succeed. -/
theorem not_defines_of_statements (before : List Operation) {later : List Operation} {name index : String}
    (hstatements : ∀ op ∈ later, ∃ prover sql, op = .execute prover sql)
    (h : ∀ made prover sql rest, ∀ s : CreateIndex, later = made ++ .execute prover sql :: rest →
      parse sql = .ok (.createIndex s) → s.table = name → s.index = index →
      ((Operation.execute prover sql).run (memoryAfter (before ++ made))).1.isOk = false) :
    ∀ μ ∈ mutationsFrom name (memoryAfter before) later, ¬μ.Defines index := by
  intro μ hμ hdefines
  obtain ⟨made, op, rest, rfl, hmade⟩ := exists_made_of_mem hμ
  obtain ⟨prover, sql, rfl⟩ := hstatements op (List.mem_append_right _ List.mem_cons_self)
  obtain ⟨⟨s, hsql, htable, hindex⟩, hok⟩ := exists_createIndex_of_made hmade hdefines
  have hfails := h made prover sql rest s rfl hsql htable hindex
  rw [memoryAfter, List.foldl_append] at hfails
  cases hfails.symm.trans hok

/-! ## Answers from indexes -/

/-- A query has succeeded with an answer of one column. If an index of that name has been defined for the
table, then the answer is flat and has the column of exactly the rows that the table had when the index was
last defined, in the order of the texts of their cells, whatever else the query asks for. If none has been
defined, then the table has none, and without one the answer is evaluated as if there were no indexes at
all. -/
theorem isSnapshot_of_execute {ops : List Operation} {prover : Option Prover} {sql name : String} {q : Select}
    {r : Reply} (hno : NoCollision (written ops)) (hsql : parse sql = .ok (.select q))
    (h : ((Operation.execute prover sql).run (memoryAfter ops)).1 = .ok (.reply r))
    (hname : r.answer.columns = [name]) :
    (∀ before prover' sql' later (s : CreateIndex), ops = before ++ .execute prover' sql' :: later →
      parse sql' = .ok (.createIndex s) → s.table = q.table → s.index = name →
      ((Operation.execute prover' sql').run (memoryAfter before)).1.isOk = true →
      (∀ μ ∈ mutationsFrom q.table (memoryAfter (before ++ [.execute prover' sql'])) later,
        ¬μ.Defines name) →
      ∃ t u newer places, ∃ cells : List Scalar, load (memoryAfter before) q.table = .ok t ∧
        load (memoryAfter ops) q.table = .ok u ∧ u.rows = t.rows ++ newer ∧
        IsSnapshot t s.column places ∧ places.map (cell? t name) = cells.map some ∧
        r.answer = ⟨[name], .rows (cells.map ([·]))⟩) ∧
    ((∀ μ ∈ mutations q.table ops, ¬μ.Defines name) →
      ∃ u, load (memoryAfter ops) q.table = .ok u ∧ u.indexes.get? name = none) ∧
    ∀ u, load (memoryAfter ops) q.table = .ok u → u.indexes.get? name = none →
      ¬Query.IsIndexed u q ∧ Query.select { u with indexes := .empty } q = .ok r.answer := by
  obtain ⟨u, hload, hanswer, -⟩ := exists_load_of_select hsql h
  have hsound := isSound_of_load hno hload
  refine ⟨?_, fun hnone => ⟨u, hload, get?_indexes_of_load hno hnone hload⟩, fun v hv hindex => ?_⟩
  · rintro before prover' sql' later s rfl hsql' htable rfl hok hlater
    rw [← htable] at hlater hload ⊢
    obtain ⟨t, i, ht, hi, hcolumns, ⟨newer, hnewer⟩, hindex⟩ :=
      exists_index_of_load hno hsql' hok hlater hload
    have hfits := (isSound_of_isClosed (isClosed_memoryAfter before) ht).2
    obtain ⟨places, cells, hsnapshot, hcells, ha⟩ :=
      Query.answer_of_snapshot hsound hanswer hname (fun r hr => (hfits.row hr).fits) hcolumns hi hindex
    exact ⟨t, u, newer, places, cells, ht, hload, hnewer.symm, hsnapshot, hcells, ha⟩
  · cases hload.symm.trans hv
    exact Query.select_of_unindexed hsound hanswer hname hindex

/-! ## An index over ranks -/

/-- Three rows that are not in the order of their ranks. -/
def rankRows : List Row := [[.string "b", .int 9], [.string "a", .int 10], [.string "c", .int 9]]

/-- The index over the ranks, whose keys are ordered as texts. -/
def rankIndex : Index := .build rankRows 1

/-- The table with the three rows. -/
def ranked : Table := { docs with rows := rankRows }

/-- The table with the index over them. -/
def indexed : Table := { ranked with indexes := .insert .empty "body" rankIndex }

/-- A row that is inserted when the index is there. -/
def lateRow : Row := [.string "d", .int 1]

/-- The table with a row that came after the index. -/
def grown : Table := { indexed with rows := rankRows ++ [lateRow] }

/-- The insertion of the three rows. -/
def rankInsertion : Insert := ⟨"docs", ["body", "rank"], [["'b'", "9"], ["'a'", "10"], ["'c'", "9"]]⟩

/-- The definition of the index, which has the name of the other column. -/
def rankDefinition : CreateIndex := ⟨"body", "docs", "rank"⟩

/-- The insertion of the late row. -/
def lateInsertion : Insert := ⟨"docs", ["body", "rank"], [["'d'", "1"]]⟩

/-- The rows are inserted. -/
def insertRanks : Operation :=
  .execute none "INSERT INTO docs (body, rank) VALUES ('b', 9), ('a', 10), ('c', 9)"

/-- The index is created. -/
def indexRanks : Operation := .execute none "CREATE INDEX body ON docs (rank)"

/-- The late row is inserted. -/
def insertLate : Operation := .execute none "INSERT INTO docs (body, rank) VALUES ('d', 1)"

/-- The insertion is parsed. -/
lemma parse_insertRanks : parse "INSERT INTO docs (body, rank) VALUES ('b', 9), ('a', 10), ('c', 9)" =
    .ok (.insert rankInsertion) := by decide

/-- The definition of the index is parsed. -/
lemma parse_indexRanks : parse "CREATE INDEX body ON docs (rank)" = .ok (.createIndex rankDefinition) := by
  decide

/-- The insertion of the late row is parsed. -/
lemma parse_insertLate : parse "INSERT INTO docs (body, rank) VALUES ('d', 1)" =
    .ok (.insert lateInsertion) := by decide

/-- The history of the table without rows. -/
def docsHistory : History := extended "docs" (.ofTable docs) .empty

/-- The history of the table with rows. -/
def ranksHistory : History := extended "docs" (.ofRows docs rankRows) docsHistory

/-- The history of the table with its index. -/
def indexHistory : History := extended "docs" (.ofIndex ranked "body" rankIndex) ranksHistory

/-- What creating the table writes. -/
def docsContents : List String := committedContents "docs" (.ofTable docs) .empty

/-- What is written until the table has rows. -/
def ranksContents : List String :=
  docsContents ++ committedContents "docs" (.ofRows docs rankRows) docsHistory

/-- What is written until it has an index. -/
def indexContents : List String :=
  ranksContents ++ committedContents "docs" (.ofIndex ranked "body" rankIndex) ranksHistory

/-- What is written until it has the late row. -/
def lateContents : List String :=
  indexContents ++ committedContents "docs" (.ofRows indexed [lateRow]) indexHistory

/-- The chunk of the rows and their payload have these digests. -/
lemma ofJson_ranks : Address.ofJson (Chunk.single "docs" (.ofRows docs rankRows)).toJson =
      ⟨"5e2e7e02daa22a0767938113c6ab6a069dabf06cd28ca8cedf0e189acac216df"⟩ ∧
    (Address.ofJson (Payload.ofRows docs rankRows).toJson).text =
      "0656dd067ae6b742070d29efbcbae42c0ce845fd0a32636544d85f8eae754aeb" := by
  rw [Address.ofJson_eq, Address.ofJson_eq]
  decide +kernel

/-- The chunk of the index and its payload have these digests. -/
lemma ofJson_index : Address.ofJson (Chunk.single "docs" (.ofIndex ranked "body" rankIndex)).toJson =
      ⟨"00d6f952c8e776ac76bb2523ffac83f19985852e0b75a4163fa412ab5630bc30"⟩ ∧
    (Address.ofJson (Payload.ofIndex ranked "body" rankIndex).toJson).text =
      "ad32c09556e48bdc4c31c45e3faee28204a002439123d875cd9d441ccf43e1f6" := by
  rw [Address.ofJson_eq, Address.ofJson_eq]
  decide +kernel

/-- The chunk of the late row and its payload have these digests. -/
lemma ofJson_late : Address.ofJson (Chunk.single "docs" (.ofRows indexed [lateRow])).toJson =
      ⟨"77203f6baa406e3d5cd27482055b955d8e53a4c179746bf8713fd421205079b7"⟩ ∧
    (Address.ofJson (Payload.ofRows indexed [lateRow]).toJson).text =
      "93753fcf53b8029ea3a33588308d13b1555ff99abcef02eef982a700e4a0f089" := by
  rw [Address.ofJson_eq, Address.ofJson_eq]
  decide +kernel

/-- The first history records the chunk of the table. -/
lemma docsHistory_eq : docsHistory = History.empty.record
    ⟨"dae661a7e40deabfb9a3f61d9a2f8664c08eecff59527a02d586c50ba6022b98"⟩
    "3a53f430ad28b1faac5fe265017a2a25e6df174594bd1c4ed3b6a6021e89aff5" :=
  extended_eq ofJson_docs.1 ofJson_docs.2

/-- The second history records the chunk of the rows. -/
lemma ranksHistory_eq : ranksHistory = docsHistory.record
    ⟨"5e2e7e02daa22a0767938113c6ab6a069dabf06cd28ca8cedf0e189acac216df"⟩
    "0656dd067ae6b742070d29efbcbae42c0ce845fd0a32636544d85f8eae754aeb" :=
  extended_eq ofJson_ranks.1 ofJson_ranks.2

/-- The third history records the chunk of the index. -/
lemma indexHistory_eq : indexHistory = ranksHistory.record
    ⟨"00d6f952c8e776ac76bb2523ffac83f19985852e0b75a4163fa412ab5630bc30"⟩
    "ad32c09556e48bdc4c31c45e3faee28204a002439123d875cd9d441ccf43e1f6" :=
  extended_eq ofJson_index.1 ofJson_index.2

/-- The addresses of the histories. -/
lemma ofJson_histories : Address.ofJson docsHistory.toJson =
      ⟨"bafa7adccbe621fe0ebffe80703e9c90322a7f81bf54d89a035c021276e82e97"⟩ ∧
    Address.ofJson ranksHistory.toJson =
      ⟨"19c50096ffba08b981e6c79ac92026b46c158a5a3a2154428531f4c08261215c"⟩ ∧
    Address.ofJson indexHistory.toJson =
      ⟨"85276a8ce22d8cc31274e62f7d086562a27536bcbb885f0f2657fd7d93ebe5f7"⟩ := by
  rw [indexHistory_eq, ranksHistory_eq, docsHistory_eq]
  simp only [Address.ofJson_eq]
  decide +kernel

/-- What is written until the table has an index has these addresses. -/
lemma addresses_indexContents : indexContents.map Address.ofText =
    [⟨"dae661a7e40deabfb9a3f61d9a2f8664c08eecff59527a02d586c50ba6022b98"⟩,
      ⟨"bafa7adccbe621fe0ebffe80703e9c90322a7f81bf54d89a035c021276e82e97"⟩,
      ⟨"5e2e7e02daa22a0767938113c6ab6a069dabf06cd28ca8cedf0e189acac216df"⟩,
      ⟨"19c50096ffba08b981e6c79ac92026b46c158a5a3a2154428531f4c08261215c"⟩,
      ⟨"00d6f952c8e776ac76bb2523ffac83f19985852e0b75a4163fa412ab5630bc30"⟩,
      ⟨"85276a8ce22d8cc31274e62f7d086562a27536bcbb885f0f2657fd7d93ebe5f7"⟩] := by
  have hcontents : indexContents.map Address.ofText =
      [Address.ofJson (Chunk.single "docs" (.ofTable docs)).toJson, Address.ofJson docsHistory.toJson,
        Address.ofJson (Chunk.single "docs" (.ofRows docs rankRows)).toJson,
        Address.ofJson ranksHistory.toJson,
        Address.ofJson (Chunk.single "docs" (.ofIndex ranked "body" rankIndex)).toJson,
        Address.ofJson indexHistory.toJson] := rfl
  obtain ⟨hdocs, hranks, hindex⟩ := ofJson_histories
  rw [hcontents, ofJson_docs.1, hdocs, ofJson_ranks.1, hranks, ofJson_index.1, hindex]

/-- The late row adds these addresses. -/
lemma addresses_lateContents : lateContents.map Address.ofText = indexContents.map Address.ofText ++
    [⟨"77203f6baa406e3d5cd27482055b955d8e53a4c179746bf8713fd421205079b7"⟩,
      ⟨"8726e5907849ce8c6d5a5a340c06cb3e490096eaa9c0943de9ece6533d2bbd8a"⟩] := by
  have hlate : (committedContents "docs" (.ofRows indexed [lateRow]) indexHistory).map Address.ofText =
      [Address.ofJson (Chunk.single "docs" (.ofRows indexed [lateRow])).toJson,
        Address.ofJson (extended "docs" (.ofRows indexed [lateRow]) indexHistory).toJson] := rfl
  have hhistory : Address.ofJson (extended "docs" (.ofRows indexed [lateRow]) indexHistory).toJson =
      ⟨"8726e5907849ce8c6d5a5a340c06cb3e490096eaa9c0943de9ece6533d2bbd8a"⟩ := by
    rw [extended_eq ofJson_late.1 ofJson_late.2, indexHistory_eq, ranksHistory_eq, docsHistory_eq,
      Address.ofJson_eq]
    decide +kernel
  rw [lateContents, List.map_append, hlate, ofJson_late.1, hhistory]

/-- What the operations write has different addresses. -/
lemma noCollision_lateContents : NoCollision lateContents := by
  refine noCollision_of_nodup ?_
  rw [addresses_lateContents, addresses_indexContents]
  decide

/-- What is written until the table has an index does not collide. -/
lemma noCollision_indexContents : NoCollision indexContents :=
  noCollision_lateContents.mono (List.subset_append_left _ _)

/-- What is written until it has rows does not collide. -/
lemma noCollision_ranksContents : NoCollision ranksContents :=
  noCollision_indexContents.mono (List.subset_append_left _ _)

/-- What creating it writes does not collide. -/
lemma noCollision_docsContents : NoCollision docsContents :=
  noCollision_ranksContents.mono (List.subset_append_left _ _)

/-- The table is created. -/
lemma reaches_docs : Reaches [createDocs] "docs" docs docsHistory docsContents :=
  reaches_create effect_createDocs (by decide) noCollision_docsContents

/-- The table has rows. -/
lemma reaches_ranks : Reaches [createDocs, insertRanks] "docs" ranked ranksHistory ranksContents :=
  reaches_alter reaches_docs (a := .rows rankRows) (effect_execute none parse_insertRanks) rfl
    (by decide) noCollision_ranksContents

/-- The table has an index over its rows. -/
lemma reaches_index :
    Reaches [createDocs, insertRanks, indexRanks] "docs" indexed indexHistory indexContents :=
  reaches_alter reaches_ranks (a := .index "body" rankIndex) (effect_execute none parse_indexRanks)
    rfl (by decide) noCollision_indexContents

/-- The table has a row that came after the index. -/
lemma reaches_late : Reaches [createDocs, insertRanks, indexRanks, insertLate] "docs" grown
    (extended "docs" (.ofRows indexed [lateRow]) indexHistory) lateContents :=
  reaches_alter reaches_index (a := .rows [lateRow]) (effect_execute none parse_insertLate) rfl
    (by decide) noCollision_lateContents

/-- What the operations write does not collide. -/
lemma noCollision_insertLate :
    NoCollision (written ([createDocs, insertRanks, indexRanks] ++ [insertLate])) :=
  reaches_late.written ▸ noCollision_lateContents

/-- The index is created with success. -/
lemma isOk_indexRanks : (indexRanks.run (memoryAfter [createDocs, insertRanks])).1.isOk = true :=
  (isOk_iff_exists_addition (effect_execute none parse_indexRanks)
    (reaches_index.written ▸ noCollision_indexContents) reaches_ranks.load).2 ⟨_, rfl⟩

/-- The late row is inserted with success. -/
lemma isOk_insertLate :
    (insertLate.run (memoryAfter [createDocs, insertRanks, indexRanks])).1.isOk = true :=
  (isOk_iff_exists_addition (effect_execute none parse_insertLate) noCollision_insertLate
    reaches_index.load).2 ⟨_, rfl⟩

/-- The insertion of the late row defines no index. -/
lemma not_defines_insertLate {before : List Operation} {name index : String} :
    ∀ μ ∈ mutationsFrom name (memoryAfter before) [insertLate], ¬μ.Defines index := by
  refine not_defines_of_statements before (fun op hop => ⟨_, _, List.mem_singleton.1 hop⟩) ?_
  intro made prover sql rest s hlater hsql
  have hmem : Operation.execute prover sql ∈ [insertLate] := by simp [hlater]
  cases List.mem_singleton.1 hmem
  cases parse_insertLate.symm.trans hsql

/-- The only index that the operations define is that of the bodies. -/
lemma not_defines_rank : ∀ μ ∈ mutations "docs" [createDocs, insertRanks, indexRanks, insertLate],
    ¬μ.Defines "rank" := by
  have hstatements : ∀ op ∈ [createDocs, insertRanks, indexRanks, insertLate], ∃ prover sql,
      op = .execute prover sql := by
    simp [createDocs, insertRanks, indexRanks, insertLate]
  refine not_defines_of_statements [] hstatements ?_
  intro made prover sql rest s hlater hsql _ hindex
  have hmem : Operation.execute prover sql ∈ [createDocs, insertRanks, indexRanks, insertLate] := by
    simp [hlater]
  simp only [List.mem_cons, List.not_mem_nil, or_false] at hmem
  rcases hmem with h | h | h | h <;> cases h
  · cases parse_createDocs.symm.trans hsql
  · cases parse_insertRanks.symm.trans hsql
  · cases parse_indexRanks.symm.trans hsql
    exact absurd hindex (by decide)
  · cases parse_insertLate.symm.trans hsql

/-- A query for the bodies, with a condition, an order and a limit. -/
def selectBodies : Select := ⟨"docs", .columns ["body"], some ⟨"rank", "1"⟩, none, some "body", some 1, none⟩

/-- A query for the ranks, of which there is no index. -/
def selectRanks : Select := ⟨"docs", .columns ["rank"], some ⟨"rank", "1"⟩, none, none, none, none⟩

/-- The query for the bodies is parsed. -/
lemma parse_selectBodies : parse "SELECT body FROM docs WHERE rank = 1 ORDER BY body LIMIT 1" =
    .ok (.select selectBodies) := by decide +kernel

/-- The query for the bodies is answered from the index, with every row that the index was built from. -/
lemma select_bodies : Query.select grown selectBodies =
    .ok ⟨["body"], .rows [[.string "a"], [.string "b"], [.string "c"]]⟩ := by decide

/-- The query for the ranks is parsed. -/
lemma parse_selectRanks : parse "SELECT rank FROM docs WHERE rank = 1" = .ok (.select selectRanks) := by
  decide +kernel

/-- The bodies come in the order of the texts of their ranks, although the query asks for one row with another
rank, in another order. The ranks have no index and are those of the rows that the query asks for. -/
theorem isSnapshot_of_execute_docs :
    NoCollision (written [createDocs, insertRanks, indexRanks, insertLate]) ∧
    (indexRanks.run (memoryAfter [createDocs, insertRanks])).1.isOk = true ∧
    (∃ r places, ((Operation.execute none "SELECT body FROM docs WHERE rank = 1 ORDER BY body LIMIT 1").run
        (memoryAfter [createDocs, insertRanks, indexRanks, insertLate])).1 = .ok (.reply r) ∧
      r.answer = ⟨["body"], .rows [[.string "a"], [.string "b"], [.string "c"]]⟩ ∧
      IsSnapshot ranked "rank" places ∧ places.map (cell? ranked "body") =
        [some (.string "a"), some (.string "b"), some (.string "c")]) ∧
    ∃ r, ((Operation.execute none "SELECT rank FROM docs WHERE rank = 1").run
        (memoryAfter [createDocs, insertRanks, indexRanks, insertLate])).1 = .ok (.reply r) ∧
      r.answer = ⟨["rank"], .rows [[.int 1]]⟩ ∧ ¬Query.IsIndexed grown selectRanks := by
  have hno := noCollision_insertLate
  have hok := isOk_indexRanks
  have hgrown := reaches_late.load
  have hranks : Query.select grown selectRanks = .ok ⟨["rank"], .rows [[.int 1]]⟩ := by decide
  refine ⟨hno, hok, ?_, ?_⟩
  · obtain ⟨r, hr, ha⟩ := exists_reply_of_select none parse_selectBodies hgrown select_bodies
    obtain ⟨hindexed, -⟩ :=
      isSnapshot_of_execute hno parse_selectBodies hr (congrArg Query.Answer.columns ha)
    obtain ⟨t, u, newer, places, cells, ht, -, -, hsnapshot, hcells, ha'⟩ :=
      hindexed [createDocs, insertRanks] none _ [insertLate] rankDefinition rfl parse_indexRanks rfl rfl hok
        not_defines_insertLate
    cases reaches_ranks.load.symm.trans ht
    refine ⟨r, places, hr, ha, hsnapshot, ?_⟩
    -- the cells are the ones of the answer
    have hsingleton : Function.Injective fun x : Scalar => [x] := fun x y hxy => List.singleton_inj.1 hxy
    have hrows : [.string "a", .string "b", .string "c"].map (fun x : Scalar => [x]) = cells.map ([·]) :=
      Query.Result.rows.inj (congrArg Query.Answer.result (ha.symm.trans ha'))
    rw [hcells, ← hsingleton.list_map hrows]
    rfl
  · obtain ⟨r, hr, ha⟩ := exists_reply_of_select none parse_selectRanks hgrown hranks
    obtain ⟨-, hnone, hfree⟩ :=
      isSnapshot_of_execute hno parse_selectRanks hr (congrArg Query.Answer.columns ha)
    obtain ⟨u, hu, hindex⟩ := hnone not_defines_rank
    cases hgrown.symm.trans hu
    exact ⟨r, hr, ha, (hfree grown hgrown hindex).1⟩

end Database

end ProvenTables
