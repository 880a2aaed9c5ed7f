import ProvenTables.Proofs.Database.Ingestion
import ProvenTables.Proofs.Query.Filtering
import ProvenTables.Proofs.Sql.RoundTrip

/-!
# Searching for inserted rows

A value that is inserted with its literal is the value that is stored, and a query that compares the column
with the same literal finds it: its answer has all rows with the value, and no others.
-/

namespace ProvenTables.Database

open Sql Storage

/-! ## Insertions that succeed -/

section Insertions

variable {ops : List Operation} {op : Operation} {name : String} {t : Table} {seen : Observation}
  {addition : Table → Except DatabaseError Addition} {s : Insert} {rows : List Row}

/-- An operation that makes a change succeeds exactly if the change can be made. -/
lemma isOk_iff_exists_change {c : Change} (he : op.effect = .change c seen)
    (hno : NoCollision (written (ops ++ [op]))) : (op.run (memoryAfter ops)).1.isOk = true ↔
      ∃ db, Keeping.stored.change (Keeping.stored.state ops) c = .ok db := by
  have hseen := (refines_stored hno).1 ops op (List.prefix_refl _)
  rw [he] at hseen
  cases hrun : (op.run (memoryAfter ops)).1 with
  | error e =>
    rw [hrun] at hseen
    refine ⟨nofun, fun hdb => ?_⟩
    rw [Keeping.observe_change_eq_ok_iff.2 ⟨hdb, rfl⟩] at hseen
    cases hseen
  | ok res =>
    rw [hrun] at hseen
    exact ⟨fun _ => (Keeping.observe_change_eq_ok_iff.1 hseen.symm).1, fun _ => rfl⟩

/-- An addition to a table that loads succeeds exactly if there is something to add. -/
lemma isOk_iff_exists_addition (he : op.effect = .change (.alter name addition) seen)
    (hno : NoCollision (written (ops ++ [op]))) (hload : load (memoryAfter ops) name = .ok t) :
    (op.run (memoryAfter ops)).1.isOk = true ↔ ∃ a, addition t = .ok a := by
  rw [(refines_stored hno).2 ops (List.prefix_append _ _)] at hload
  rw [isOk_iff_exists_change he hno, exists_change_alter_iff]
  exact ⟨fun ⟨u, hu, ha⟩ => Except.ok.inj (hload.symm.trans hu) ▸ ha, fun ha => ⟨t, hload, ha⟩⟩

/-- An insertion has rows if and only if it names all columns in order and its literals are converted. -/
lemma newRows_eq_ok_iff : newRows t s = .ok rows ↔ s.columns = t.columnNames ∧
    List.Forall₂ (fun literals r => convertRow t.columns literals = .ok r) s.rows rows := by
  rw [newRows]
  split
  · rename_i hcolumns
    simp [hcolumns]
  · rename_i hcolumns
    rw [mapM_eq_ok_iff, and_iff_right (not_not.1 hcolumns)]

/-- A literal of a value that can be searched for gives the value. -/
lemma exists_cell_of_newRows {x : Scalar} {i k : ℕ} {c : String} {literals : List String}
    (h : newRows t s = .ok rows) (hx : x.IsSearchable) (hc : t.columns[i]? = some ⟨c, x.type⟩)
    (hk : s.rows[k]? = some literals) (hi : literals[i]? = some (literalOf x)) :
    ∃ r : Row, rows[k]? = some r ∧ r[i]? = some x := by
  obtain ⟨r, hr, hrow⟩ := exists_getElem?_of_forall₂ (newRows_eq_ok_iff.1 h).2 hk
  have hzip : (t.columns.zip literals)[i]? = some (⟨c, x.type⟩, literalOf x) :=
    List.getElem?_zip_eq_some.2 ⟨hc, hi⟩
  obtain ⟨y, hy, hcell⟩ := exists_getElem?_of_forall₂ (convertRow_eq_ok_iff.1 hrow).2 hzip
  have hconvert : convert ⟨c, x.type⟩ (literalOf x) = .ok x := by
    cases hx with
    | int n => exact convert_literalOf trivial trivial trivial rfl
    | string hv => exact convert_literalOf trivial trivial hv rfl
  cases hcell.symm.trans hconvert
  exact ⟨r, hr, hy⟩

/-- The effect of a text is that of the statement which it is parsed as. -/
lemma effect_execute (prover : Option Prover) {sql : String} {s : Statement} (h : parse sql = .ok s) :
    (Operation.execute prover sql).effect = effectOfStatement s := by
  simp only [Operation.effect, h]

/-- The effect of the text of an insertion is that of the insertion. -/
lemma effect_insert (prover : Option Prover) (padded : Bool) (hs : s.IsPrintable) :
    (Operation.execute prover (s.render padded)).effect =
      .change (.alter s.table fun t => Addition.rows <$> newRows t s) changedAnswer :=
  effect_execute prover hs.parse_eq

end Insertions

/-! ## Insertions and queries -/

/-- An insertion that succeeds appends a row for each group of literals, with the value `x` in a column
where the literal of `x` stands for it. A query for two columns or more that compares the column with the
literal of `x` is then answered with all rows that have the value `x` there, and no others, in the order of
the table. -/
theorem select_of_insert {ops : List Operation} {prover : Option Prover} {padded : Bool} {s : Insert}
    {t : Table} {x : Scalar} {i : ℕ} {c : String}
    (hno : NoCollision (written (ops ++ [.execute prover (s.render padded)]))) (hs : s.IsPrintable)
    (hload : load (memoryAfter ops) s.table = .ok t) (hc : t.columns[i]? = some ⟨c, x.type⟩)
    (hx : x.IsSearchable) (hdated : ∀ rows, newRows t s = .ok rows → ∀ r ∈ rows, r.IsDated)
    (hok : ((Operation.execute prover (s.render padded)).run (memoryAfter ops)).1.isOk = true) :
    ∃ rows, rows.length = s.rows.length ∧
      load (memoryAfter (ops ++ [.execute prover (s.render padded)])) s.table =
        .ok { t with rows := t.rows ++ rows } ∧
      (∀ (k : ℕ) (literals : List String), s.rows[k]? = some literals → literals[i]? = some (literalOf x) →
        ∃ r : Row, rows[k]? = some r ∧ r[i]? = some x) ∧
      ∀ (prover' : Option Prover) (p : Projection), 2 ≤ (p.names t).length →
        (∀ n ∈ p.names t, n ∈ t.columnNames) → ∃ reply positions found,
          ((Operation.execute prover' (Select.render
              ⟨s.table, p, some ⟨c, literalOf x⟩, none, none, none, none⟩)).run
            (memoryAfter (ops ++ [.execute prover (s.render padded)]))).1 = .ok (.reply reply) ∧
          reply.answer = ⟨p.names t, .rows found⟩ ∧
          (p.names t).mapM t.position? = some positions ∧
          (((t.rows ++ rows).filter fun r => r[i]? = some x).mapM (·.project? positions)) = some found := by
  have he := effect_insert prover padded hs
  obtain ⟨a, ha⟩ := (isOk_iff_exists_addition he hno hload).1 hok
  obtain ⟨rows, hrows, rfl⟩ := map_eq_ok_iff.1 ha
  have hafter := load_of_alteration he hno hload ha (hdated rows hrows)
  obtain ⟨hcolumns, hforall⟩ := newRows_eq_ok_iff.1 hrows
  refine ⟨rows, hforall.length_eq.symm, hafter, fun k literals => exists_cell_of_newRows hrows hx hc,
    fun prover' p hlength hnames => ?_⟩
  have hsound := (isSound_of_isClosed (isClosed_memoryAfter _) hafter).2
  obtain ⟨positions, found, hpositions, hfound, hselect⟩ :=
    Query.select_of_filter hsound hx hc hlength hnames s.table
  -- the columns of the table are the names in the statement, and no keywords
  have hname : ∀ n ∈ t.columnNames, IsName n := fun n hn => hs.columns n (hcolumns ▸ hn)
  have hprintable : Select.IsPrintable ⟨s.table, p, some ⟨c, literalOf x⟩, none, none, none, none⟩ := by
    refine ⟨hs.table, ?_, ?_, by simp, by simp, by simp, by simp⟩
    · rintro names rfl
      exact ⟨by rintro rfl; simp [Projection.names] at hlength, fun n hn => hname n (hnames n hn)⟩
    · rintro f ⟨⟩
      exact ⟨hname c (List.mem_map.2 ⟨_, List.mem_of_getElem? hc, rfl⟩), isLiteral_literalOf hx⟩
  have hparse := parse_select hprintable
  obtain ⟨reply, hreply, hanswer⟩ := exists_reply_of_select prover' hparse hafter hselect
  exact ⟨reply, positions, found, hreply, hanswer, hpositions, hfound⟩

/-! ## Runs that change one table -/

section Reaches

variable {ops : List Operation} {op : Operation} {name : String} {t : Table} {h : History}
  {contents : List String} {seen : Observation}

/-- What operations on an empty memory write, and what they make of one table. -/
structure Reaches (ops : List Operation) (name : String) (t : Table) (h : History) (contents : List String) :
    Prop where
  written : written ops = contents
  load : load (memoryAfter ops) name = .ok t
  history : (lineage name (mutations name ops)).history = h

/-- The first operation creates the table. -/
lemma reaches_create (he : op.effect = .change (.create name (.ok t)) seen) (hdated : t.IsDated)
    (hno : NoCollision (committedContents name (.ofTable t) .empty)) :
    Reaches [op] name t (extended name (.ofTable t) .empty) (committedContents name (.ofTable t) .empty) := by
  obtain ⟨rfl, hsound⟩ := isSound_effect he t rfl
  obtain ⟨o, ho⟩ := exists_yields_of_deed_ok (l := .empty) (d := ⟨t, .ofTable t⟩) he rfl
  obtain ⟨res, q, r, hyields, -⟩ := ho .empty (follows_empty t.name)
  have hwritten : written [op] = committedContents t.name (.ofTable t) .empty :=
    (List.append_nil _).trans hyields.kept
  rw [← hwritten] at hno
  have hok : (op.run (memoryAfter [])).1.isOk = true := (isOk_iff_exists_change he hno).2 ⟨_, rfl⟩
  obtain ⟨d, hd, hline⟩ := exists_lineage_of_isOk he (hno.mono (List.nil_subset _)) hok
  cases hd
  refine ⟨hwritten, ?_, congrArg Line.history hline⟩
  rw [(follows_lineage hno t.name).load_eq, Line.load_eq_ok_iff]
  refine (congrArg Line.table hline).trans (congrArg some (mapError_eq_ok_iff.2 ?_))
  exact (Payload.toTable_ofTable hsound).2 ⟨hdated, rfl⟩

/-- One more operation adds to the table. Its payload is stored behind the history of the table. -/
lemma reaches_alter {addition : Table → Except DatabaseError Addition} {a : Addition}
    (hr : Reaches ops name t h contents) (he : op.effect = .change (.alter name addition) seen)
    (ha : addition t = .ok a) (hdated : ∀ r ∈ a.allRows, r.IsDated)
    (hno : NoCollision (contents ++ committedContents name (a.payload t) h)) :
    Reaches (ops ++ [op]) name (a.apply t) (extended name (a.payload t) h)
      (contents ++ committedContents name (a.payload t) h) := by
  obtain ⟨hcontents, hload, rfl⟩ := hr
  have hops : NoCollision (written ops) := hcontents ▸ hno.mono (List.subset_append_left _ _)
  have hfollows := follows_lineage hops name
  have hline := hfollows.load_eq.symm.trans hload
  obtain ⟨o, ho⟩ := exists_yields_of_deed_ok he (Change.deed_alter_eq_ok_iff.2 ⟨t, a, hline, ha, rfl⟩)
  obtain ⟨res, q, r, hyields, -⟩ := ho _ hfollows
  have hwritten := (written_append ops op).trans (congrArg₂ _ hcontents hyields.kept)
  have hlast : NoCollision (written (ops ++ [op])) := hwritten ▸ hno
  have hok := (isOk_iff_exists_addition he hlast hload).2 ⟨a, ha⟩
  refine ⟨hwritten, load_of_alteration he hlast hload ha hdated, ?_⟩
  obtain ⟨d, hd, hpush⟩ := exists_lineage_of_isOk he hops hok
  obtain ⟨t', a', ht', ha', rfl⟩ := Change.deed_alter_eq_ok_iff.1 hd
  cases hline.symm.trans ht'
  cases ha.symm.trans ha'
  exact congrArg Line.history hpush

/-- The table is registered at the address of its history, from which it is replayed. -/
lemma Reaches.exists_pointer (hr : Reaches ops name t h contents) (hno : NoCollision contents) :
    ∃ p, (memoryAfter ops).registry.pointer? name = some p ∧ p.table = name ∧
      p.address = Address.ofJson h.toJson ∧ Stored (memoryAfter ops).objects h.toJson ∧
      (replay name p.address).reading? (memoryAfter ops).objects = some (.ok t) := by
  have hfollows := follows_lineage (hr.written ▸ hno) name
  have hload := hfollows.load_eq.symm.trans hr.load
  have hregistered := hfollows.of_some (Line.load_eq_ok_iff.1 hload)
  rwa [hr.history] at hregistered

end Reaches

/-! ## A row that is found -/

/-- A table of bodies and ranks without rows. -/
def docs : Table := ⟨"docs", [⟨"body", .string⟩, ⟨"rank", .int⟩], [], .empty⟩

/-- The table is created. -/
def createDocs : Operation := .execute none "CREATE TABLE docs (body STRING, rank INT)"

/-- A text with a clause, a separator, a line break and an open bracket. -/
def clause : String := " LIMIT 1;\n[= "

/-- Two rows, one of which has a text like a clause. -/
def docRows : List Row := [[.string clause, .int (-7)], [.string "x", .int 7]]

/-- The rows are inserted. -/
def insertDocs : Operation := .execute none ((insertion "docs" docs docRows).render false)

/-- The definition of the table is parsed. -/
lemma parse_createDocs : parse "CREATE TABLE docs (body STRING, rank INT)" =
    .ok (.createTable ⟨"docs", docs.columns⟩) := by decide

/-- The effect of the definition. -/
lemma effect_createDocs : createDocs.effect = .change (.create "docs" (.ok docs)) changedAnswer :=
  effect_execute none parse_createDocs

/-- The rows can be inserted. -/
lemma isInsertable_docRows : IsInsertable "docs" docs docRows := by
  refine ⟨by decide, by decide, by decide, ?_, by decide, by decide⟩
  intro r hr
  simp only [docRows, List.mem_cons, List.not_mem_nil, or_false] at hr
  rcases hr with rfl | rfl <;> exact ⟨by decide, by simp [Row.IsFinite, Scalar.IsFinite]⟩

/-- The chunk of the table and its payload have these digests. -/
lemma ofJson_docs : Address.ofJson (Chunk.single "docs" (.ofTable docs)).toJson =
      ⟨"dae661a7e40deabfb9a3f61d9a2f8664c08eecff59527a02d586c50ba6022b98"⟩ ∧
    (Address.ofJson (Payload.ofTable docs).toJson).text =
      "3a53f430ad28b1faac5fe265017a2a25e6df174594bd1c4ed3b6a6021e89aff5" := by
  rw [Address.ofJson_eq, Address.ofJson_eq]
  decide +kernel

/-- What the operations write has these addresses. -/
lemma addresses_insertDocs : (committedContents "docs" (.ofTable docs) .empty ++
    committedContents "docs" (.ofRows docs docRows) (extended "docs" (.ofTable docs) .empty)).map
      Address.ofText =
    [⟨"dae661a7e40deabfb9a3f61d9a2f8664c08eecff59527a02d586c50ba6022b98"⟩,
      ⟨"bafa7adccbe621fe0ebffe80703e9c90322a7f81bf54d89a035c021276e82e97"⟩,
      ⟨"20b45a86cfb6fc679e7eb0185cbf68a9fdf68ede7e89a1dabe8422c2cd077b72"⟩,
      ⟨"c2d7951789a544cee14029ea4105170869bdcf6de38e55aef660404401950cbe"⟩] := by
  have hcontents : (committedContents "docs" (.ofTable docs) .empty ++
      committedContents "docs" (.ofRows docs docRows) (extended "docs" (.ofTable docs) .empty)).map
        Address.ofText =
      [Address.ofJson (Chunk.single "docs" (.ofTable docs)).toJson,
        Address.ofJson (extended "docs" (.ofTable docs) .empty).toJson,
        Address.ofJson (Chunk.single "docs" (.ofRows docs docRows)).toJson,
        Address.ofJson (extended "docs" (.ofRows docs docRows)
          (extended "docs" (.ofTable docs) .empty)).toJson] := rfl
  have hinserted : Address.ofJson (Chunk.single "docs" (.ofRows docs docRows)).toJson =
      ⟨"20b45a86cfb6fc679e7eb0185cbf68a9fdf68ede7e89a1dabe8422c2cd077b72"⟩ ∧
      (Address.ofJson (Payload.ofRows docs docRows).toJson).text =
        "585aeacf5f332d700e2e750b83c56f696dd2ec94c83aa99fc05c29e854edadbe" := by
    rw [Address.ofJson_eq, Address.ofJson_eq]
    decide +kernel
  rw [hcontents, extended_eq ofJson_docs.1 ofJson_docs.2, extended_eq hinserted.1 hinserted.2,
    ofJson_docs.1, hinserted.1]
  simp only [Address.ofJson_eq]
  decide +kernel

/-- The insertion has the two rows. -/
lemma newRows_docRows : newRows docs (insertion "docs" docs docRows) = .ok docRows :=
  newRows_insertion isInsertable_docRows.sound isInsertable_docRows.dated isInsertable_docRows.quoteFree

/-- The insertion can be printed. -/
lemma isPrintable_docRows : (insertion "docs" docs docRows).IsPrintable :=
  ⟨by decide, by decide, by decide, by decide, isValue_insertion isInsertable_docRows⟩

/-- The effect of the insertion. -/
lemma effect_insertDocs : insertDocs.effect = .change (.alter "docs" fun t =>
    Addition.rows <$> newRows t (insertion "docs" docs docRows)) changedAnswer := by
  rw [insertDocs, effect_insert none false isPrintable_docRows]
  rfl

/-- The insertion adds the two rows. -/
lemma addition_docRows : (fun t => Addition.rows <$> newRows t (insertion "docs" docs docRows)) docs =
    .ok (.rows docRows) := by
  simp only [newRows_docRows]
  rfl

/-- The table is loaded before the insertion, and what is written does not collide. -/
lemma noCollision_insertDocs : load (memoryAfter [createDocs]) "docs" = .ok docs ∧
    NoCollision (written [createDocs, insertDocs]) := by
  have hno : NoCollision (committedContents "docs" (.ofTable docs) .empty ++
      committedContents "docs" (.ofRows docs docRows) (extended "docs" (.ofTable docs) .empty)) := by
    refine noCollision_of_nodup ?_
    rw [addresses_insertDocs]
    decide
  have hcreated := reaches_create effect_createDocs (by decide) (hno.mono (List.subset_append_left _ _))
  have hinserted := reaches_alter hcreated effect_insertDocs addition_docRows isInsertable_docRows.dated hno
  exact ⟨hcreated.load, hinserted.written ▸ hno⟩

/-- A text that looks like a part of a statement is found, and nothing else. -/
theorem select_of_insert_docs :
    load (memoryAfter [createDocs]) "docs" = .ok docs ∧
    NoCollision (written [createDocs, insertDocs]) ∧
    (insertDocs.run (memoryAfter [createDocs])).1.isOk = true ∧
    load (memoryAfter [createDocs, insertDocs]) "docs" = .ok { docs with rows := docRows } ∧
    ∃ reply, ((Operation.execute none "SELECT rank, body FROM docs WHERE body = ' LIMIT 1;\n[= '").run
        (memoryAfter [createDocs, insertDocs])).1 = .ok (.reply reply) ∧
      reply.answer = ⟨["rank", "body"], .rows [[.int (-7), .string " LIMIT 1;\n[= "]]⟩ := by
  obtain ⟨hload, hno⟩ := noCollision_insertDocs
  have hlast : NoCollision (written ([createDocs] ++ [insertDocs])) := hno
  have hok : (insertDocs.run (memoryAfter [createDocs])).1.isOk = true :=
    (isOk_iff_exists_addition effect_insertDocs hlast hload).2 ⟨_, addition_docRows⟩
  have hafter :=
    load_of_alteration effect_insertDocs hlast hload addition_docRows isInsertable_docRows.dated
  have hdated : ∀ rows, newRows docs (insertion "docs" docs docRows) = .ok rows →
      ∀ r ∈ rows, r.IsDated := by
    rw [newRows_docRows]
    rintro _ ⟨⟩
    exact isInsertable_docRows.dated
  obtain ⟨rows, -, hload', -, hselect⟩ :=
    select_of_insert (x := .string clause) (i := 0) (c := "body") hlast
    isPrintable_docRows hload rfl (.string (by decide)) hdated hok
  cases hafter.symm.trans hload'
  obtain ⟨reply, positions, found, hreply, hanswer, hpositions, hfound⟩ :=
    hselect none (.columns ["rank", "body"]) (by decide) (by decide)
  have htext : Select.render ⟨"docs", .columns ["rank", "body"], some ⟨"body", literalOf (.string clause)⟩,
      none, none, none, none⟩ = "SELECT rank, body FROM docs WHERE body = ' LIMIT 1;\n[= '" := by
    decide +kernel
  rw [← htext]
  refine ⟨hload, hno, hok, hafter, reply, hreply, ?_⟩
  cases hpositions
  cases hfound
  exact hanswer

end ProvenTables.Database
