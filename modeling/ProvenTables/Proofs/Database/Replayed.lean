import ProvenTables.Proofs.Database.Operation
import ProvenTables.Proofs.Membership.Typing
import ProvenTables.Proofs.Storage.Replay
import ProvenTables.Proofs.Storage.Soundness

/-!
# What is done with replayed tables

A table that has been replayed is sound, so that nothing that is done with it without a check can fail:
queries find a value for every output column, cells are encoded as values of the types of their columns,
and converted rows are added.
-/

open ProvenTables.Membership

namespace ProvenTables.Database

/-- Whatever a store answers, a table that is replayed from it has distinct columns and one finite value of
the right type for each in every row of its own and of its indexes. A query whose columns are found has an
answer, no cell of the table or of an answer is refused for its type when it is encoded, and all rows that
literals stand for are added. -/
theorem isSound_of_replay {σ : Type} {answer : (r : Request) → σ → r.Answer × σ} {s : σ} {name : String}
    {address : Address} {t : Table} (h : ((Storage.replay name address).run answer s).1 = .ok t) :
    t.name = name ∧ t.columnNames.Nodup ∧
    (∀ r ∈ t.allRows, Table.Fits t.columns r ∧ r.IsFinite) ∧
    (∀ q p, Query.planOf t q = .ok p →
      (∀ r ∈ t.allRows, ∀ i ∈ p.output, i < r.length) ∧ ∃ a, p.run t = .ok a) ∧
    (∀ params expected got, tableRoots params t ≠ .error (.typeMismatch expected got) ∧
      ∀ q a, Query.select t q = .ok a →
        recordRoots params t a.columns a.result.allRows ≠ .error (.typeMismatch expected got)) ∧
    ∀ insertion rows, newRows t insertion = .ok rows →
      t.pushAll rows = .ok { t with rows := t.rows ++ rows } := by
  obtain ⟨hname, hsound⟩ := (Storage.ensures_replay name address).of_run h
  have hown : ∀ r ∈ t.rows, Table.Fits t.columns r :=
    fun r hr => (hsound.row hr).fits
  refine ⟨hname, firstRepeated?_eq_none_iff.1 hsound.distinct, fun r hr => ?_, fun q p hplan => ?_,
    fun params expected got => ⟨tableRoots_ne hown, fun q a ha => recordRoots_ne hsound ha⟩,
    fun insertion rows hrows => pushAll_of_fits fun r hr => (isSound_of_newRows hrows r hr).fits⟩
  · exact ⟨(hsound.rows r hr).fits, (hsound.rows r hr).isFinite⟩
  · have hlt := Query.output_lt hplan
    refine ⟨fun r hr i hi => ?_, (Query.Plan.exists_answer hsound hlt).imp fun a ha => ha.1⟩
    have hlength : r.length = t.columns.length := by
      simpa using congrArg List.length (hsound.rows r hr).fits
    exact hlength ▸ hlt i hi

/-! ## Chunks that disagree -/

/-- A chunk that declares one column. -/
def declaring : Json :=
  .obj [("t", .obj [("column_types", .obj [("n", .str "int")]), ("columns", .strs ["n"]),
    ("rows", .arr [.arr [.int 1]])])]

/-- A chunk with other columns of one name and without their types, and with an index. -/
def disagreeing : Json :=
  .obj [("t", .obj [("column_types", .obj []), ("columns", .strs ["x", "x"]),
    ("indexes", .obj [("n", .obj [("?", .arr [.arr [.int 3]])])]), ("rows", .arr [.arr [.int 2]])])]

/-- A history of two chunks that do not agree about an index. -/
def patchedHistory : History := ⟨[⟨⟨"declaring"⟩, ""⟩, ⟨⟨"disagreeing"⟩, ""⟩], [], none⟩

/-- A store with both chunks, under addresses that are no digests. -/
def patched : Memory where
  objects := SortedMap.ofList [("declaring", declaring.canonical),
    ("disagreeing", disagreeing.canonical), ("history", patchedHistory.toJson.canonical)]
  registry := .empty

/-- The table of that store. -/
def patchedTable : Table where
  name := "t"
  columns := [⟨"n", .int⟩]
  rows := [[.int 1], [.int 2]]
  indexes := .insert .empty "n" ⟨.insert .empty "?" [[.int 3]]⟩

open Json in
/-- Both chunks are canonical. -/
lemma isCanonical_chunks : declaring.IsCanonical 5 ∧ disagreeing.IsCanonical 6 := by
  refine ⟨⟨?_, by decide, rfl⟩, ⟨?_, by decide, rfl⟩⟩ <;>
    simp [declaring, disagreeing, WellFormed, WellFormedFields, WellFormedItems, Json.int, strs,
      JsonNumber.WellFormed, isWord]

open Storage Procedure in
/-- The table is replayed from the two chunks. -/
lemma replay_patched : ((replay "t" ⟨"history"⟩).run Memory.answer patched).1 = .ok patchedTable := by
  have hdeclaring : (get ⟨"declaring"⟩).reading? patched.objects = some (.ok declaring) :=
    reading?_get_of_text isCanonical_chunks.1 (by decide) rfl
  have hdisagreeing : (get ⟨"disagreeing"⟩).reading? patched.objects = some (.ok disagreeing) :=
    reading?_get_of_text isCanonical_chunks.2 (by decide) rfl
  have hhistory : (loadHistory ⟨"history"⟩).reading? patched.objects = some (.ok patchedHistory) :=
    reading?_loadHistory_of_text (by decide) rfl
  have hentries : (replayEntries "t" none patchedHistory.entries).reading? patched.objects =
      some (.ok (some patchedTable)) := by
    have hfirst : (ofExcept (Chunk.ofJson declaring >>= replayChunk "t" none)).mapError StorageError.data =
        pure (some { patchedTable with rows := [[.int 1]], indexes := .empty }) := rfl
    refine (reading?_bind_ok hdeclaring).trans ?_
    rw [hfirst, pure_bind]
    exact reading?_bind_ok hdisagreeing
  have hreplay : (replay "t" ⟨"history"⟩).reading? patched.objects = some (.ok patchedTable) := by
    rw [replay, reading?_bind_ok hhistory, reading?_bind_ok hentries]
    rfl
  rw [run_of_reading? hreplay]

/-- The chunks of the store disagree on the columns, and its table has the ones of the first. -/
theorem isSound_of_replay_patched :
    ((Storage.replay "t" ⟨"history"⟩).run Memory.answer patched).1 = .ok patchedTable ∧
    patchedTable.columnNames.Nodup ∧ (∀ r ∈ patchedTable.allRows, Table.Fits patchedTable.columns r) ∧
    patchedTable.allRows = [[.int 1], [.int 2], [.int 3]] :=
  have h := isSound_of_replay replay_patched
  ⟨replay_patched, h.2.1, fun r hr => (h.2.2.1 r hr).1, rfl⟩

end ProvenTables.Database
