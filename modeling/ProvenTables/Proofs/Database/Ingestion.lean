import ProvenTables.Proofs.Database.Lineage
import ProvenTables.Proofs.Sql.Values
import ProvenTables.Proofs.Storage.RoundTrip
import ProvenTables.Proofs.Storage.Soundness

/-!
# Ingestion

Rows are added to a table by a statement with a literal for each value, or as a payload with a JSON value
for each. Both lead to the same memory.
-/

namespace ProvenTables

/-- No quote in the strings of a row. -/
def Row.IsQuoteFree (r : Row) : Prop := ∀ x ∈ r, x.IsQuoteFree

/-- Whether a row has no quotes can be decided. -/
instance (r : Row) : Decidable r.IsQuoteFree := inferInstanceAs (Decidable (∀ x ∈ r, x.IsQuoteFree))

namespace Payload

/-- An encoded payload is valid. -/
lemma IsEncoded.isValid {p : Payload} (h : p.IsEncoded) : p.IsValid := by
  have hcells : ∀ rows, AreEncoded rows → ∀ r ∈ rows, ∀ v ∈ r, v.WellFormed := by
    intro rows hrows r hr v hv
    obtain ⟨x, rfl⟩ := hrows r hr v hv
    exact x.isCanonical_toJson.wellFormed
  exact ⟨hcells _ h.rows, fun i hi b hb => hcells _ (h.indexes i hi b hb)⟩

/-- The payload of rows is valid. -/
lemma isValid_ofRows (t : Table) (rows : List Row) : (ofRows t rows).IsValid :=
  (isEncoded_ofRows t rows).isValid

end Payload

namespace Database

open Sql Storage
open Procedure (run_bind_ok)

/-! ## Additions to loaded tables -/

section Additions

variable {ops : List Operation} {op : Operation} {name : String} {t : Table} {seen : Observation}
  {addition : Table → Except DatabaseError Addition}

/-- A table that loads is sound, whatever is in the store. -/
lemma isSound_of_isClosed {m : Memory} (hm : m.IsClosed) (h : load m name = .ok t) :
    t.name = name ∧ t.IsSound := by
  obtain ⟨p, -, rfl, hread⟩ := exists_of_load hm h
  have hrun := congrArg Prod.fst (Procedure.run_of_reading? hread)
  exact (ensures_replay p.table p.address).of_run hrun

/-- A database is changed by an addition to a table that it has, if there is something to add. -/
lemma exists_change_alter_iff {α : Type} {k : Keeping α} {db : SortedMap α} :
    (∃ db', k.change db (.alter name addition) = .ok db') ↔
      ∃ t, k.find db name = .ok t ∧ ∃ a, addition t = .ok a := by
  simp only [Keeping.change, bind_eq_ok_iff]
  constructor
  · rintro ⟨db', t, ht, a, ha, -⟩
    exact ⟨t, ht, a, ha⟩
  · rintro ⟨t, ht, a, ha⟩
    exact ⟨_, t, ht, a, ha, rfl⟩

/-- A dated addition to a table that loads is what loading gives next. -/
lemma load_of_alteration {a : Addition} (he : op.effect = .change (.alter name addition) seen)
    (hno : NoCollision (written (ops ++ [op]))) (hload : load (memoryAfter ops) name = .ok t)
    (ha : addition t = .ok a) (hdated : ∀ r ∈ a.allRows, r.IsDated) :
    load (memoryAfter (ops ++ [op])) name = .ok (a.apply t) := by
  have hloads := (refines_stored hno).2
  rw [hloads ops (List.prefix_append _ _)] at hload
  obtain ⟨db, hdb⟩ := exists_change_alter_iff.2 ⟨t, hload, a, ha⟩
  have hstate : Keeping.stored.state (ops ++ [op]) = db := by
    rw [state_append, Keeping.step_eq, he]
    exact Keeping.apply_of_change hdb
  obtain ⟨u, hu, -, hfind⟩ := find_of_change (isReadBack_state ops) (isSound_effect he) hdb
  obtain rfl : a.apply t = u := by
    simpa [Change.result, hload, ha, bind, Except.bind, pure, Except.pure] using hu
  have hbefore : t.IsDated := (isReadBack_state ops name t (find_eq_ok_iff.1 hload)).2
  rw [hloads _ (List.prefix_refl _), hstate]
  exact (hfind _).2 ⟨(isDated_apply_iff hbefore).2 hdated, rfl⟩

end Additions

/-! ## Rows in statements and in payloads -/

section Rows

variable {t : Table} {rows : List Row} {name : String}

/-- The statement that inserts rows into a table of a name. -/
def insertion (name : String) (t : Table) (rows : List Row) : Insert :=
  ⟨name, t.columnNames, rows.map (·.map literalOf)⟩

/-- The literals of a sound row are converted to the row. -/
lemma convertRow_literals {columns : List Column} {r : Row} (h : r.IsSound columns) (hd : r.IsDated)
    (hq : r.IsQuoteFree) : convertRow columns (r.map literalOf) = .ok r := by
  obtain ⟨hfits, hfinite⟩ := h
  refine convertRow_eq_ok_iff.2 ⟨by simpa using congrArg List.length hfits, ?_⟩
  induction columns generalizing r with
  | nil =>
    obtain rfl : r = [] := by simpa [Table.Fits] using hfits
    exact .nil
  | cons c columns ih =>
    cases r with
    | nil => cases hfits
    | cons x r =>
      obtain ⟨htype, hfits⟩ := List.cons.inj hfits
      obtain ⟨hx, hfinite⟩ := List.forall_mem_cons.1 hfinite
      obtain ⟨hdx, hd⟩ := List.forall_mem_cons.1 hd
      obtain ⟨hqx, hq⟩ := List.forall_mem_cons.1 hq
      exact .cons (convert_literalOf hx hdx hqx htype) (ih hd hq hfits hfinite)

/-- An insertion of the literals of rows has these rows. -/
lemma newRows_insertion (h : ∀ r ∈ rows, r.IsSound t.columns) (hd : ∀ r ∈ rows, r.IsDated)
    (hq : ∀ r ∈ rows, r.IsQuoteFree) : newRows t (insertion name t rows) = .ok rows := by
  have hcolumns : (insertion name t rows).columns = t.columnNames := rfl
  rw [newRows, if_neg (not_not.2 hcolumns)]
  exact mapM_map_eq_ok fun r hr => convertRow_literals (h r hr) (hd r hr) (hq r hr)

/-- A payload of rows appends these rows. -/
lemma appendedRows_ofRows (ht : t.IsSound) (h : ∀ r ∈ rows, r.IsSound t.columns)
    (hd : ∀ r ∈ rows, r.IsDated) : appendedRows t (.ofRows t rows) = .ok rows := by
  have htypes :
      (t.columns.find? fun c => (Payload.ofRows t rows).types.get? c.name ≠ some c.type) = none := by
    refine List.find?_eq_none.2 fun c hc => ?_
    have hget : (Payload.ofRows t rows).types.get? c.name = some c.type :=
      Payload.get?_types_ofColumns (firstRepeated?_eq_none_iff.1 ht.distinct) hc
    simp [hget]
  have hdecode : (Payload.ofRows t rows).decodeRows t.columns = .ok rows :=
    (Payload.decodeRows_encodeRow h rows).2 ⟨hd, rfl⟩
  have hcolumns : (Payload.ofRows t rows).columns = t.columnNames := rfl
  rw [appendedRows, if_neg (not_not.2 hcolumns), htypes]
  simp only [hdecode]
  rfl

/-- The reply to an insertion names what has been written. -/
lemma exists_insertReply (prover : Option Prover) {s : Insert} {w : Written}
    (h : newRows w.table s = .ok rows) :
    ∃ reply, insertReply prover s w = .ok (.reply reply) ∧ reply.commit = some w.commit := by
  cases prover with
  | none => exact ⟨_, rfl, rfl⟩
  | some prove =>
    have hpush := pushAll_of_fits fun r hr => (isSound_of_newRows h r hr).fits
    simp only [insertReply, h, bind, Except.bind, hpush]
    exact ⟨_, rfl, rfl⟩

/-- Whether rows can be inserted into a table by a statement. -/
structure IsInsertable (name : String) (t : Table) (rows : List Row) : Prop where
  name : isIdentifier name.toList = true ∧ name ≠ "VALUES"
  nonempty : t.columns ≠ [] ∧ rows ≠ []
  columns : ∀ c ∈ t.columnNames, isIdentifier c.toList = true
  sound : ∀ r ∈ rows, r.IsSound t.columns
  dated : ∀ r ∈ rows, r.IsDated
  quoteFree : ∀ r ∈ rows, r.IsQuoteFree

/-- Every literal of an insertion is a value. -/
lemma isValue_insertion (h : IsInsertable name t rows) :
    ∀ literals ∈ (insertion name t rows).rows, ∀ v ∈ literals, IsValue v := by
  intro literals hliterals v hv
  obtain ⟨r, hr, rfl⟩ := List.mem_map.1 hliterals
  obtain ⟨x, hx, rfl⟩ := List.mem_map.1 hv
  exact isValue_literalOf ((h.sound r hr).isFinite x hx) (h.quoteFree r hr x hx)

/-- The text of an insertion is parsed as the insertion. -/
lemma parse_insertion (padded : Bool) (h : IsInsertable name t rows) :
    parse ((insertion name t rows).render padded) = .ok (.insert (insertion name t rows)) := by
  refine parse_insert h.name.1 h.name.2 ?_ h.columns ?_ (isValue_insertion h)
  · simpa [insertion, Table.columnNames] using h.nonempty.1
  · simpa [insertion] using h.nonempty.2

end Rows

/-! ## Two ways of ingestion -/

/-- If a table loads, then the statement that inserts rows into it and the payload of the rows are both
executed. They lead to the same memory, in which the table is at the address that both reply with. If no two
contents have the same address, then it loads with the rows behind the ones that it had. -/
theorem run_insertion_eq_run_ofRows (prover : Option Prover) (padded : Bool) {ops : List Operation}
    {name : String} {t : Table} {rows : List Row} (hload : load (memoryAfter ops) name = .ok t)
    (h : IsInsertable name t rows) :
    ∃ reply c q m,
      (Operation.execute prover ((insertion name t rows).render padded)).run (memoryAfter ops) =
        (.ok (.reply reply), m) ∧
      (Operation.appendData name (.ofRows t rows) (Payload.isValid_ofRows t rows)).run (memoryAfter ops) =
        (.ok (.pointer q), m) ∧
      reply.commit = some c ∧ q.address = c.history ∧ m.registry.pointer? name = some q ∧
      (NoCollision (written (ops ++ [.appendData name (.ofRows t rows) (Payload.isValid_ofRows t rows)])) →
        load m name = .ok { t with rows := t.rows ++ rows }) := by
  -- the literals and the payload are two spellings of the same rows
  have hclosed := isClosed_memoryAfter ops
  have hsound := (isSound_of_isClosed hclosed hload).2
  have hliterals : newRows t (insertion name t rows) = .ok rows :=
    newRows_insertion h.sound h.dated h.quoteFree
  have happended : appendedRows t (.ofRows t rows) = .ok rows := appendedRows_ofRows hsound h.sound h.dated
  obtain ⟨c, q, o, r, -, -, hmoves, hname, haddress, -, hrun⟩ :=
    exists_run_altering hclosed hload (.rows rows)
  obtain ⟨reply, hreply, hcommit⟩ := exists_insertReply prover (w := ⟨t, c, q⟩) hliterals
  -- both operations alter the table by these rows, so `hrun` gives them the same memory
  have hinsert := hrun Pointer.table (fun t' => Addition.rows <$> newRows t' (insertion name t rows))
    (fun _ hp => hp) (by simp only [hliterals]; rfl)
  have happend := hrun (fun _ => name) (fun t' => Addition.rows <$> appendedRows t' (.ofRows t rows))
    (fun _ _ => rfl) (by simp only [happended]; rfl)
  have hrunAppend : (Operation.appendData name (.ofRows t rows) (Payload.isValid_ofRows t rows)).run
      (memoryAfter ops) = (.ok (.pointer q), ⟨o, r⟩) := by
    rw [Operation.run, Operation.procedure, appendData_eq, run_bind_ok happend]
    rfl
  refine ⟨reply, c, q, ⟨o, r⟩, ?_, hrunAppend, hcommit, haddress, (hmoves name).trans (if_pos hname),
    fun hno => ?_⟩
  · rw [Operation.run, procedure_execute (parse_insertion padded h)]
    change Procedure.run Memory.answer (do return Response.reply (← insert prover _)) _ = _
    rw [insert_eq]
    change Procedure.run Memory.answer (altering Pointer.table name _ >>= _) _ = _
    rw [run_bind_ok hinsert, hreply]
    rfl
  · have hnext := load_of_alteration (a := .rows rows) rfl hno hload (by simp only [happended]; rfl) h.dated
    rw [memoryAfter_append, hrunAppend] at hnext
    exact hnext

/-! ## A row of every type -/

open Chunk (sample samples)

/-- Creates the table of samples without its row. -/
def createSamples : Operation :=
  .createEntity "samples" (.ofTable samples.cleared) (Payload.isEncoded_ofTable _).isValid

/-- The payload of the sample without rows gives it back. -/
lemma toTable_samples : (Payload.ofTable samples.cleared).toTable "samples" = .ok samples.cleared := by
  have hsound : samples.cleared.IsSound := ⟨by decide, fun r hr => by cases hr⟩
  exact (Payload.toTable_ofTable hsound).2 ⟨by decide, rfl⟩

/-- The sample without rows is loaded after it has been created. -/
lemma load_createSamples : load (memoryAfter [createSamples]) "samples" = .ok samples.cleared := by
  refine load_createEntity toTable_samples (by decide) (noCollision_createdContents
    ⟨"d99282c4c1adf4684e19e07931b239859be7b231c026a6aa585a6c45177cd2d3"⟩
    "874d1b12a490ad4370c86ff71ed69a9f94c0108a87945fbd95e5be7df664835a" ?_ ?_ ?_) <;>
    rw [Address.ofJson_eq]
  · decide +kernel
  · decide +kernel
  · decide +kernel

/-- A row with a value of every type is inserted. -/
theorem run_insertion_eq_run_ofRows_samples :
    load (memoryAfter [createSamples]) "samples" = .ok samples.cleared ∧
    IsInsertable "samples" samples.cleared [sample] ∧
    ∃ reply q m,
      (Operation.execute none ("INSERT INTO samples (z, y, x, w, v, u) VALUES (-9223372036854775808, " ++
          "-0.0, true, 'a \"b\"\n', '2016-12-31T23:59:60.999999999Z', [0.1, 5e-324])")).run
        (memoryAfter [createSamples]) = (.ok (.reply reply), m) ∧
      (Operation.appendData "samples" (.ofRows samples.cleared [sample])
        (Payload.isValid_ofRows _ _)).run (memoryAfter [createSamples]) = (.ok (.pointer q), m) ∧
      reply.commit.map Storage.Commit.history = some q.address := by
  have hsound : sample.IsSound samples.cleared.columns :=
    Chunk.isSound_samples.rows sample (by rw [Chunk.allRows_samples]; exact List.mem_cons_self)
  have h : IsInsertable "samples" samples.cleared [sample] := by
    refine ⟨by decide, by decide, by decide, ?_, by decide, by decide⟩
    exact List.forall_mem_singleton.2 hsound
  obtain ⟨reply, c, q, m, hinsert, happend, hcommit, haddress, -, -⟩ :=
    run_insertion_eq_run_ofRows none false load_createSamples h
  have htext : (insertion "samples" samples.cleared [sample]).render false =
      "INSERT INTO samples (z, y, x, w, v, u) VALUES (-9223372036854775808, " ++
        "-0.0, true, 'a \"b\"\n', '2016-12-31T23:59:60.999999999Z', [0.1, 5e-324])" := by
    decide +kernel
  rw [htext] at hinsert
  exact ⟨load_createSamples, h, reply, q, m, hinsert, happend, by rw [hcommit, haddress]; rfl⟩

end Database

end ProvenTables
