import ProvenTables.Proofs.Database.Snapshots
import ProvenTables.Proofs.Membership.Divisibility

/-!
# Provability of replies

The rows of a reply, or those that have been inserted, are claimed to be rows of the table. After
operations whose payloads bring no index the claim is honest, so that it is proved, and the proof
verified, unless a float of the table cannot be scaled or the challenge is a root of the rows.
-/

namespace ProvenTables.Database

open Sql ProvenTables.Membership

/-- The operation brings no index but those that statements create. -/
def Operation.HasNoIndex : Operation → Prop
  | createEntity _ payload _ => payload.indexes = .empty
  | _ => True

/-- An operation that brings no index leaves the indexes faithful. -/
lemma Operation.HasNoIndex.isFaithful {op : Operation} (h : op.HasNoIndex) : op.IsFaithful := by
  cases op with
  | createEntity name payload valid =>
    intro t ht
    simp only [Payload.toTable, bind_eq_ok_iff] at ht
    obtain ⟨columns, -, u, -, rows, -, indexes, hindexes, htable⟩ := ht
    cases htable
    refine Table.isFaithful_of_isEmpty ?_
    rw [Payload.decodeIndexes, show payload.indexes = .empty from h] at hindexes
    cases hindexes
    rfl
  | _ => trivial

/-! ## Claims -/

/-- What is claimed in the reply to a statement that finds tables as they are loaded: a new table has
no rows to be claimed, and the creation of an index claims nothing. -/
def claimOf (load : String → Except DatabaseError Table) :
    Statement → Except DatabaseError (Option Claim)
  | .createTable s => do return some ⟨← newTable s, [], []⟩
  | .createIndex _ => return none
  | .insert s => do
    let t ← load s.table
    let rows ← newRows t s
    return some ⟨{ t with rows := t.rows ++ rows }, [], rows⟩
  | .select s => do
    let t ← load s.table
    let a ← (Query.select t s).mapError .query
    return some ⟨t, a.columns, a.result.allRows⟩

/-- Creating a table succeeds with the table. -/
lemma table_of_run_creating {m : Memory} {name : String} {table : Except DatabaseError Table}
    {w : Written} (h : ((creating name table).run Memory.answer m).1 = .ok w) :
    table = .ok w.table := by
  obtain ⟨found, -, hcreate⟩ := Procedure.exists_of_run_bind h
  split at hcreate
  · cases hcreate
  · obtain ⟨t, ht, hwrite⟩ := Procedure.exists_of_run_bind hcreate
    obtain ⟨c, -, hregister⟩ := Procedure.exists_of_run_bind hwrite
    obtain ⟨p, -, hw⟩ := Procedure.exists_of_run_bind hregister
    cases hw
    exact ht

/-- Altering a table succeeds with the table as it was loaded. -/
lemma load_of_run_altering {m : Memory} {key : Pointer → String} {name : String}
    {addition : Table → Except DatabaseError Addition} {w : Written}
    (h : ((altering key name addition).run Memory.answer m).1 = .ok w) :
    load m name = .ok w.table := by
  obtain ⟨⟨p, t⟩, hload, hadd⟩ := Procedure.exists_of_run_bind h
  obtain ⟨a, -, hwrite⟩ := Procedure.exists_of_run_bind hadd
  obtain ⟨c, -, hmove⟩ := Procedure.exists_of_run_bind hwrite
  obtain ⟨q, -, hw⟩ := Procedure.exists_of_run_bind hmove
  cases hw
  rw [load, hload]
  rfl

/-- The proof in a reply is that of what is claimed. -/
theorem proof_of_execute {m : Memory} {prover : Prover} {sql : String} {s : Statement} {r : Reply}
    (hsql : parse sql = .ok s)
    (h : ((Operation.execute (some prover) sql).run m).1 = .ok (.reply r)) :
    ∃ claim, claimOf (load m) s = .ok claim ∧ r.proof = claim.map prover := by
  cases s with
  | createTable s =>
    rw [Operation.run, procedure_execute hsql] at h
    change (Procedure.run _ (do return Response.reply (← createTable (some prover) s)) m).1 = _ at h
    rw [createTable_eq] at h
    obtain ⟨w, hwrite, hreply⟩ := Procedure.exists_of_run_bind h
    cases hreply
    -- the claim about a created table covers no records
    refine ⟨some ⟨w.table, [], []⟩, ?_, rfl⟩
    rw [claimOf, table_of_run_creating hwrite]
    rfl
  | createIndex s =>
    rw [Operation.run, procedure_execute hsql] at h
    change (Procedure.run _ (do return Response.reply (← createIndex s)) m).1 = _ at h
    rw [createIndex_eq] at h
    obtain ⟨w, -, hreply⟩ := Procedure.exists_of_run_bind h
    cases hreply
    -- an index is created without a proof
    exact ⟨none, rfl, rfl⟩
  | insert s =>
    rw [Operation.run, procedure_execute hsql] at h
    change (Procedure.run _ (do return Response.reply (← insert (some prover) s)) m).1 = _ at h
    rw [insert_eq] at h
    obtain ⟨w, hwrite, hreply⟩ := Procedure.exists_of_run_bind h
    have hload := load_of_run_altering hwrite
    change insertReply (some prover) s w = .ok (.reply r) at hreply
    simp only [insertReply, bind_eq_ok_iff] at hreply
    obtain ⟨rows, hrows, t, ht, hr⟩ := hreply
    -- converted rows fit the table, so pushing them onto it succeeds
    rw [pushAll_of_fits fun r hr => (isSound_of_newRows hrows r hr).fits] at ht
    cases ht
    cases hr
    refine ⟨some ⟨{ w.table with rows := w.table.rows ++ rows }, [], rows⟩, ?_, rfl⟩
    simp only [claimOf, hload, hrows, bind, Except.bind]
    rfl
  | select s =>
    obtain ⟨t, hload, ha, hproof⟩ := exists_load_of_select hsql h
    refine ⟨some ⟨t, r.answer.columns, r.answer.result.allRows⟩, ?_, hproof⟩
    simp only [claimOf, hload, ha, bind, Except.bind]
    rfl

/-- After operations that bring no index every claim is honest, and about rows that fit their table. -/
theorem isHonest_of_claimOf {ops : List Operation} {s : Statement} {claim : Claim}
    (hno : NoCollision (written ops)) (hops : ∀ op ∈ ops, op.HasNoIndex)
    (h : claimOf (load (memoryAfter ops)) s = .ok (some claim)) :
    claim.IsHonest ∧ ∀ r ∈ claim.table.rows, Table.Fits claim.table.columns r := by
  cases s with
  | createTable s =>
    obtain ⟨t, ht, hclaim⟩ := bind_eq_ok_iff.1 h
    cases hclaim
    refine ⟨isHonest_of_subperm (List.nil_subperm), fun r hr => ?_⟩
    exact ((isSound_newTable ht).2.row hr).fits
  | createIndex s => cases h
  | insert s =>
    simp only [claimOf, bind_eq_ok_iff] at h
    obtain ⟨t, ht, rows, hrows, hclaim⟩ := h
    cases hclaim
    refine ⟨isHonest_of_subperm (List.sublist_append_right _ _).subperm, fun r hr => ?_⟩
    rcases List.mem_append.1 hr with hr | hr
    · exact ((isSound_of_load hno ht).row hr).fits
    · exact (isSound_of_newRows hrows r hr).fits
  | select s =>
    simp only [claimOf, bind_eq_ok_iff, mapError_eq_ok_iff] at h
    obtain ⟨t, ht, a, ha, hclaim⟩ := h
    cases hclaim
    have hsound := isSound_of_load hno ht
    have hfaithful := isFaithful_of_load hno (fun op hop => (hops op hop).isFaithful) ht
    refine ⟨isHonest_of_isDrawnFrom (Query.isDrawnFrom_of_select hsound hfaithful ha), ?_⟩
    exact fun r hr => (hsound.row hr).fits

/-- Without a time limit the digest backend comes to an outcome for every claim. -/
lemma ends_attempt_digest (challenge : Challenge) (slots : Slots) (claim : Claim) :
    (attempt (.transcript .bn254) challenge none slots claim).Ends :=
  ends_attempt (fun _ => Backend.returns_transcript (by decide) (by decide)) challenge slots claim

/-- The prover whose proofs are digests, without a time limit. -/
def digestProver (challenge : Challenge) (slots : Slots) : Prover := fun claim =>
  (attempt (.transcript .bn254) challenge none slots claim).result
    (ends_attempt_digest challenge slots claim)

/-- The prover gives what proving the claim comes to. -/
lemma digestProver_of_prove {challenge : Challenge} {slots : Slots} {claim : Claim}
    {outcome : ProofOutcome} (h : prove (.transcript .bn254) challenge claim = .ends outcome) :
    digestProver challenge slots claim = outcome :=
  Work.ends.inj ((Work.eq_ends_result _).symm.trans h)

/-- A statement other than the creation of an index that succeeds has a proof in its reply. The proof is
accepted exactly if every float of the table can be scaled and the challenge is no root of the rows that
are claimed to be in the table. -/
theorem isAccepted_of_execute {ops : List Operation} {challenge : Challenge} {slots : Slots}
    {sql : String} {s : Statement} {r : Reply} (hno : NoCollision (written ops))
    (hops : ∀ op ∈ ops, op.HasNoIndex) (hsql : parse sql = .ok s) (hs : ∀ i, s ≠ .createIndex i)
    (h : ((Operation.execute (some (digestProver challenge slots)) sql).run (memoryAfter ops)).1 =
      .ok (.reply r)) :
    ∃ claim outcome, claimOf (load (memoryAfter ops)) s = .ok (some claim) ∧
      r.proof = some outcome ∧ (claim.table.columns ≠ [] →
        (outcome.IsAccepted ↔ IsScalable claim.table ∧
          ∀ bs as, tableRoots .bn254 claim.table = .ok bs →
            recordRoots .bn254 claim.table claim.names claim.records = .ok as →
            challenge.point .bn254 bs as ∉ as)) := by
  obtain ⟨claim, hclaim, hproof⟩ := proof_of_execute hsql h
  cases claim with
  | none =>
    cases s with
    | createIndex i => exact absurd rfl (hs i)
    | _ => simp [claimOf, bind_eq_ok_iff, pure, Except.pure] at hclaim
  | some claim =>
    obtain ⟨hhonest, hfits⟩ := isHonest_of_claimOf hno hops hclaim
    refine ⟨claim, _, hclaim, hproof, fun hcolumns => ?_⟩
    have hmoduli : 1 ≤ Params.bn254.order ∧ 1 ≤ Params.bn254.scale := by decide
    obtain ⟨outcome, hprove, haccepted⟩ :=
      exists_prove_isAccepted_iff hmoduli.1 hmoduli.2 hcolumns hfits hhonest
    rw [digestProver_of_prove hprove]
    exact haccepted

/-! ## A column that is projected twice -/

/-- One half. -/
def half : Binary64 := ⟨0x3FE0000000000000⟩

/-- Three halves. -/
def threeHalves : Binary64 := ⟨0x3FF8000000000000⟩

/-- A table with two scores. -/
def scores : Table :=
  ⟨"scores", [⟨"id", .int⟩, ⟨"score", .float⟩],
    [[.int 1, .float threeHalves], [.int 2, .float half]], .empty⟩

/-- The payload of that table. -/
def scoresPayload : Payload where
  columns := ["id", "score"]
  types := .insert (.insert .empty "id" .int) "score" .float
  rows := [[.num (.int 1), .num (.float threeHalves)], [.num (.int 2), .num (.float half)]]
  indexes := .empty

/-- The payload is valid. -/
lemma isValid_scores : scoresPayload.IsValid := by
  constructor
  · simp only [scoresPayload, List.forall_mem_cons, Json.WellFormed, JsonNumber.WellFormed]
    exact ⟨⟨by decide, by decide, by simp⟩, ⟨by decide, by decide, by simp⟩, by simp⟩
  · simp [scoresPayload, SortedMap.empty]

/-- The payload gives the table back. -/
lemma toTable_scores : scoresPayload.toTable "scores" = .ok scores := by rfl

/-- The table is created from its payload. -/
def createScores : Operation := .createEntity "scores" scoresPayload isValid_scores

/-- What the creation writes does not collide. -/
lemma noCollision_scores : NoCollision (createdContents "scores" scores) := by
  refine noCollision_createdContents
    ⟨"ef115684d8660075ba2efe3b7ecdc57e865824496855c62c7fecd040ccfbd7c4"⟩
    "e1940883e08e446c7dd94b2c150bf06b08a3cb24d77ca3640d62aa302be95187" ?_ ?_ ?_ <;>
    rw [Address.ofJson_eq]
  · decide +kernel
  · decide +kernel
  · decide +kernel

/-- The lowest score, twice. -/
def selectScore : Select :=
  ⟨"scores", .columns ["score", "score"], none, none, some "score", some 1, none⟩

/-- The query is parsed. -/
lemma parse_selectScore : parse "SELECT score, score FROM scores ORDER BY score LIMIT 1" =
    .ok (.select selectScore) := by decide

/-- The query is answered with the least score, twice in a row. -/
lemma select_scores : Query.select scores selectScore =
    .ok ⟨["score", "score"], .rows [[.float half, .float half]]⟩ := by decide

/-- The field element of one half in its column. -/
def halfRoot : ℕ := 5108579796255934527386556066176036560598600609729474788431907204779183041812

/-- One half has that field element. -/
lemma encodeCell_half : encodeCell .bn254 ⟨"score", .float⟩ 1 (.float half) = .ok halfRoot := by
  have hvalue : encodeScalar .float (.float half) = .ok ((50000000 : ℕ) : ℤ) := by decide
  have hdigest : digestNat (Digest.utf8 (cellPreimage "score" 1 (50000000 : ℕ))) %
      Params.bn254.order = halfRoot := by
    rw [Digest.utf8_eq, toList_cellPreimage, Digest.utf8_eq]
    decide +kernel
  simp only [encodeCell, hvalue, bind, Except.bind, hdigest]
  rfl

/-- The score has one root, though it is projected twice. -/
lemma recordRoots_scores :
    recordRoots .bn254 scores ["score", "score"] [[.float half, .float half]] = .ok [halfRoot] := by
  have hroots : recordRoots .bn254 scores ["score", "score"] [[.float half, .float half]] = do
      return [← encodeCell .bn254 ⟨"score", .float⟩ 1 (.float half)] := rfl
  rw [hroots, encodeCell_half]
  rfl

/-- What the operation writes does not collide. -/
lemma noCollision_createScores : NoCollision (written [createScores]) := by
  rw [createScores, written_createEntity _ toTable_scores]
  exact noCollision_scores

/-- The table is loaded after it has been created. -/
lemma load_createScores : load (memoryAfter [createScores]) "scores" = .ok scores :=
  load_createEntity toTable_scores (by decide) noCollision_scores

/-- The claim of the query has the row of the answer. -/
lemma claimOf_selectScore : claimOf (load (memoryAfter [createScores])) (.select selectScore) =
    .ok (some ⟨scores, ["score", "score"], [[.float half, .float half]]⟩) := by
  have hanswer : (Query.select scores selectScore).mapError DatabaseError.query =
      .ok ⟨["score", "score"], .rows [[.float half, .float half]]⟩ := by
    rw [select_scores]
    rfl
  exact bind_eq_ok_iff.2 ⟨scores, load_createScores, bind_eq_ok_iff.2 ⟨_, hanswer, rfl⟩⟩

/-- The number seven is no root of the record. -/
lemma not_mem_recordRoots_scores {bs as : List ℕ}
    (h : recordRoots .bn254 scores ["score", "score"] [[.float half, .float half]] = .ok as) :
    (Challenge.chosen 7).point .bn254 bs as ∉ as := by
  cases h.symm.trans recordRoots_scores
  change ¬(7 % Params.bn254.order) ∈ [halfRoot]
  decide

/-- The lowest of two scores is proved to be one of them, with a challenge that is not its root. -/
theorem isAccepted_of_execute_scores :
    NoCollision (written [createScores]) ∧ createScores.HasNoIndex ∧ ∃ r outcome,
      ((Operation.execute (some (digestProver (.chosen 7) .free))
        "SELECT score, score FROM scores ORDER BY score LIMIT 1").run
          (memoryAfter [createScores])).1 = .ok (.reply r) ∧
      r.proof = some outcome ∧ outcome.IsAccepted := by
  have hindex : createScores.HasNoIndex := rfl
  obtain ⟨r, hr, -⟩ := exists_reply_of_select (some (digestProver (.chosen 7) .free))
    parse_selectScore load_createScores select_scores
  obtain ⟨claim, outcome, hclaim, hproof, haccepted⟩ := isAccepted_of_execute
    noCollision_createScores (fun op hop => List.mem_singleton.1 hop ▸ hindex) parse_selectScore
    (fun i hi => by cases hi) hr
  cases hclaim.symm.trans claimOf_selectScore
  have hscalable : IsScalable scores := by decide
  exact ⟨noCollision_createScores, hindex, r, outcome, hr, hproof, (haccepted (by decide)).2
    ⟨hscalable, fun bs as _ has => not_mem_recordRoots_scores has⟩⟩

end ProvenTables.Database
