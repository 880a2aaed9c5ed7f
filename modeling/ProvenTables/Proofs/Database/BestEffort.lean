import ProvenTables.Database.Open
import ProvenTables.Proofs.Database.Indexing
import ProvenTables.Proofs.Database.Restarts

/-!
# Proofs on a best-effort basis

A statement for which a proof is asked makes the same requests as one for which none is asked, and comes
to the same outcome but for the proof. A caller who waits for a limited time, or for a backend whose calls
return, is told that outcome, whatever becomes of the proof.
-/

namespace ProvenTables

open ProvenTables.Membership

namespace ReplyWith

variable {P : Type}

/-- The reply as it is if no proof is asked for. -/
def withoutProof (r : ReplyWith P) : ReplyWith P := { r with proof := none }

/-- The reply without its proof, and whether it has one. -/
def outline (r : ReplyWith P) : ReplyWith P × Bool := (r.withoutProof, r.proof.isSome)

/-- An outcome that has the outline of another is that one with a proof, or without. -/
lemma of_outline {ε : Type} {o o' : Except ε (ReplyWith P)} {b : Bool}
    (h : o.map outline = o'.map (·, b)) :
    o.map withoutProof = o' ∧ ∀ r, o = .ok r → r.proof.isSome = b := by
  cases o with
  | error e =>
    cases o' with
    | error e' =>
      cases h
      exact ⟨rfl, fun r hr => by cases hr⟩
    | ok r' => cases h
  | ok r =>
    cases o' with
    | error e' => cases h
    | ok r' =>
      obtain ⟨hreply, hproof⟩ := Prod.mk.inj (Except.ok.inj h)
      exact ⟨congrArg Except.ok hreply, fun q hq => by cases hq; exact hproof⟩

/-- Once the work in a reply has ended, the reply is the one that is given without a proof in all else. -/
lemma exists_awaited {r : ReplyWith (Work ProofOutcome)} (h : ∀ w, r.proof = some w → w.Ends) :
    ∃ q : Reply, r.awaited = .ends q ∧ r.withoutProof.awaited = .ends q.withoutProof ∧
      q.proof.isSome = r.proof.isSome := by
  obtain ⟨answer, proof, commit⟩ := r
  cases proof with
  | none => exact ⟨⟨answer, none, commit⟩, rfl, rfl, rfl⟩
  | some w =>
    obtain ⟨outcome⟩ := h w rfl
    exact ⟨⟨answer, some outcome, commit⟩, rfl, rfl, rfl⟩

end ReplyWith

/-- Whether a proof applies to the statement: the creation of an index has no rows to be proved. -/
def Sql.Statement.isProvable : Sql.Statement → Bool
  | .createIndex _ => false
  | _ => true

/-- A proof applies to all statements but those that create an index. -/
lemma Sql.Statement.isProvable_eq_true_iff {s : Sql.Statement} :
    s.isProvable = true ↔ ∀ i, s ≠ .createIndex i := by
  cases s <;> simp [isProvable]

namespace Database

open Sql

variable {P : Type} (prove : Claim → P)

/-! ## Statements -/

/-- A table is created alike with a proof and without. -/
lemma outline_createTable (s : CreateTable) :
    ReplyWith.outline <$> createTable (some prove) s = (·, true) <$> createTable none s := by
  simp only [createTable, map_bind]
  refine congrArg _ (funext fun found => ?_)
  split
  · rfl
  · simp only [map_bind]
    rfl

/-- An index is created without a proof. -/
lemma outline_createIndex (s : CreateIndex) :
    ReplyWith.outline (P := P) <$> createIndex s = (·, false) <$> createIndex s := by
  simp only [createIndex, map_bind]
  rfl

/-- The inserted rows fit the table, so that the claim about it can be made. -/
lemma outline_insert (s : Insert) :
    ReplyWith.outline <$> insert (some prove) s = (·, true) <$> insert none s := by
  simp only [insert, map_bind]
  refine congrArg _ (funext fun found => ?_)
  cases hrows : newRows found.2 s with
  | error e => rfl
  | ok rows =>
    have hpush := pushAll_of_fits fun r hr => (isSound_of_newRows hrows r hr).fits
    simp only [ofExcept_ok_bind, hpush]
    rfl

/-- A query is answered alike with a proof and without. -/
lemma outline_select (s : Select) :
    ReplyWith.outline <$> select (some prove) s = (·, true) <$> select none s := by
  simp only [select, map_bind]
  rfl

/-- A statement is executed alike with a proof and without. -/
lemma outline_executeStatement (s : Statement) :
    ReplyWith.outline <$> executeStatement (some prove) s =
      (·, s.isProvable) <$> executeStatement none s := by
  cases s with
  | createTable s => exact outline_createTable prove s
  | createIndex s => exact outline_createIndex s
  | insert s => exact outline_insert prove s
  | select s => exact outline_select prove s

/-- Both ways of executing a statement make the same requests, whoever answers them, and leave the same
behind. The outcomes differ in the proof alone, which is there if it applies. -/
theorem run_execute_some {σ : Type} (answer : (r : Request) → σ → r.Answer × σ) (sql : String) (s : σ) :
    ((execute (some prove) sql).run answer s).2 =
        ((execute none sql : Procedure _ (ReplyWith P)).run answer s).2 ∧
      ((execute (some prove) sql).run answer s).1.map ReplyWith.withoutProof =
        ((execute none sql).run answer s).1 ∧
      ∀ r, ((execute (some prove) sql).run answer s).1 = .ok r →
        (r.proof.isSome = true ↔ ∀ i, parse sql ≠ .ok (.createIndex i)) := by
  simp only [execute]
  cases parse sql with
  | error e => exact ⟨rfl, rfl, fun r hr => by cases hr⟩
  | ok statement =>
    have hrun := congrArg (fun p => p.run answer s) (outline_executeStatement prove statement)
    simp only [Procedure.run_map, Prod.mk.injEq] at hrun
    obtain ⟨hreply, hproof⟩ := ReplyWith.of_outline hrun.1
    refine ⟨hrun.2, hreply, fun r hr => ?_⟩
    rw [hproof r hr, Statement.isProvable_eq_true_iff]
    simp only [ne_eq, Except.ok.injEq]

/-! ## Calls -/

/-- The callers of two executions that differ in the work on a proof are told outcomes that differ in the
proof, once that work has ended. -/
lemma exists_awaited {o o' : Except DatabaseError (ReplyWith (Work ProofOutcome))}
    (hends : ∀ r, o = .ok r → ∀ w, r.proof = some w → w.Ends) (h : o.map ReplyWith.withoutProof = o') :
    ∃ q, awaited o = .ends q ∧ awaited o' = .ends (q.map ReplyWith.withoutProof) ∧
      ∀ r, q = .ok r → ∃ r', o = .ok r' ∧ r.proof.isSome = r'.proof.isSome := by
  subst h
  cases o with
  | error e => exact ⟨.error e, rfl, rfl, fun r hr => by cases hr⟩
  | ok r =>
    obtain ⟨q, hq, hwithout, hproof⟩ := ReplyWith.exists_awaited (hends r rfl)
    refine ⟨.ok q, ?_, ?_, fun r' hr' => ?_⟩
    · rw [awaited, hq]
      rfl
    · change r.withoutProof.awaited.map Except.ok = _
      rw [hwithout]
      rfl
    · cases hr'
      exact ⟨r, rfl, hproof⟩

/-- The work that stands in a reply ends, if the time for it is limited or its backend returns. -/
lemma ends_of_execute {backend : Backend} {challenge : Challenge} {timeout : Option ℕ} {slots : Slots}
    {σ : Type} {answer : (r : Request) → σ → r.Answer × σ} {sql : String} {s : σ}
    {r : ReplyWith (Work ProofOutcome)} {w : Work ProofOutcome} (h : timeout = none → backend.Returns)
    (hr : ((execute (some (attempt backend challenge timeout slots)) sql).run answer s).1 = .ok r)
    (hw : r.proof = some w) : w.Ends := by
  obtain ⟨prove, hprove, claim, rfl⟩ := exists_claim_of_execute _ hr hw
  cases hprove
  exact ends_attempt h challenge slots claim

/-- Whatever is stored, whatever is executed, and whatever a backend makes of the claim that goes with it, if
its moduli are positive and its calls return or else the time for them is limited: a call that asks for a
proof returns, and so does the one that asks for none. Both leave the same medium and have the same outcome,
an error or a reply, but for the proof. The reply to the first has one unless the statement creates an
index. -/
theorem execute_without_proof (backend : Backend) (timeout : Option ℕ)
    (h : timeout = none → backend.Returns) (challenge : Challenge) (slots : Slots) (sql : String)
    (m : Medium) :
    ∃ o o' m', call (some (attempt backend challenge timeout slots)) sql m = (.ends o, m') ∧
      call none sql m = (.ends o', m') ∧ o.map ReplyWith.withoutProof = o' ∧
      ∀ r, o = .ok r → (r.proof.isSome = true ↔ ∀ i, parse sql ≠ .ok (.createIndex i)) := by
  obtain ⟨hmedium, hreply, hproof⟩ :=
    run_execute_some (attempt backend challenge timeout slots) Medium.answer sql m
  obtain ⟨o, ho, ho', hsome⟩ := exists_awaited (fun r hr w => ends_of_execute h hr) hreply
  simp only [call_eq, ho, ho', hmedium]
  refine ⟨o, _, _, rfl, rfl, rfl, fun r hr => ?_⟩
  obtain ⟨r', hr', heq⟩ := hsome r hr
  rw [heq]
  exact hproof r' hr'

/-! ## Backends that give no proof -/

/-- The proof in a reply is what the work on a claim has come to. -/
lemma exists_claim_of_call {a : Claim → Work ProofOutcome} {sql : String} {m : Medium} {r : Reply}
    {p : ProofOutcome} (h : (call (some a) sql m).1 = .ends (.ok r)) (hp : r.proof = some p) :
    ∃ claim, a claim = .ends p := by
  rw [call_eq] at h
  cases hrun : ((execute (some a) sql).run Medium.answer m).1 with
  | error e =>
    rw [hrun] at h
    cases h
  | ok r' =>
    rw [hrun] at h
    obtain ⟨answer, proof, commit⟩ := r'
    cases proof with
    | none =>
      cases h
      cases hp
    | some w =>
      obtain ⟨a', ha', claim, hclaim⟩ := exists_claim_of_execute _ hrun rfl
      cases ha'
      cases w with
      | ends outcome =>
        cases h
        cases hp
        exact ⟨claim, hclaim⟩
      | dies => cases h
      | stalls => cases h

/-- Without a proof the caller is told what the statement comes to. -/
lemma awaited_map_ends (o : Except DatabaseError Reply) :
    awaited (o.map (ReplyWith.map Work.ends)) = .ends o := by
  cases o with
  | error e => rfl
  | ok r =>
    obtain ⟨answer, proof, commit⟩ := r
    cases proof <;> rfl

/-- If a statement is executed, the call that asks for no proof has the reply of the operation. -/
lemma exists_call_none {sql : String} {m : Memory}
    (h : ((Operation.execute none sql).run m).1.isOk = true) :
    ∃ r, ((Operation.execute none sql).run m).1 = .ok (.reply r) ∧
      call none sql (.memory m) = (.ends (.ok r), .memory ((Operation.execute none sql).run m).2) := by
  have hrun : (Operation.execute none sql).run m = _ :=
    Procedure.run_map Memory.answer Response.reply (execute none sql) m
  have hmap := execute_map (Work.ends (α := ProofOutcome)) none sql
  rw [Option.map_none] at hmap
  rw [hrun] at h ⊢
  rw [call_eq, hmap, ← Procedure.runOn, Procedure.runOn_memory, Procedure.run_map, awaited_map_ends]
  generalize (execute none sql).run Memory.answer m = outcome at h ⊢
  obtain ⟨o, m'⟩ := outcome
  cases o with
  | error e => cases h
  | ok r => exact ⟨r, rfl, rfl⟩

/-- A backend that compiles nothing. -/
def refusing : Backend :=
  { Backend.transcript .bn254 with compile := fun _ => .ends (.error (.notCompiled "too large")) }

/-- A backend whose proofs all die. -/
def dying : Backend := { Backend.transcript .bn254 with prove := fun _ => .dies }

/-- The work of the refusing backend ends. -/
lemma returns_refusing : refusing.Returns :=
  ⟨by decide, by decide, fun _ => .intro _, fun _ => .intro _⟩

/-- Without a time limit every proof of the refusing backend fails. -/
lemma attempt_refusing (challenge : Challenge) (slots : Slots) (claim : Claim) :
    ∃ cause, attempt refusing challenge none slots claim = .ends (.failed cause) := by
  change ∃ cause, (work refusing challenge claim).map ProofOutcome.ofExcept = _
  rw [work]
  split
  · exact ⟨_, rfl⟩
  · rw [claim.witness_of_pos returns_refusing.order returns_refusing.scale]
    cases Witness.build refusing.params challenge claim.table claim.names claim.records with
    | error e => exact ⟨_, rfl⟩
    | ok w => exact ⟨_, rfl⟩

/-- Under a time limit every proof of the dying backend fails. -/
lemma attempt_dying (challenge : Challenge) (timeout : ℕ) (claim : Claim) :
    ∃ cause, attempt dying challenge (some timeout) .free claim = .ends (.failed cause) := by
  change ∃ cause, Work.ends (await timeout _ (work dying challenge claim)).1 = _
  rw [work]
  split
  · exact ⟨_, rfl⟩
  · rw [claim.witness_of_pos (by decide) (by decide)]
    cases Witness.build dying.params challenge claim.table claim.names claim.records with
    | error e => exact ⟨_, rfl⟩
    | ok w => exact ⟨_, rfl⟩

/-- If a call that asks for no proof has a reply, and the proofs of all claims fail, then the call that asks
for a proof has the same reply with a proof that has failed. -/
lemma exists_failed_of_alike {a : Claim → Work ProofOutcome} {sql : String} {m x : Medium} {q : Reply}
    (h : ∃ o o' m', call (some a) sql m = (.ends o, m') ∧ call none sql m = (.ends o', m') ∧
      o.map ReplyWith.withoutProof = o' ∧
      ∀ r, o = .ok r → (r.proof.isSome = true ↔ ∀ i, parse sql ≠ .ok (.createIndex i)))
    (hnone : call none sql m = (.ends (.ok q), x)) (hsql : ∀ i, parse sql ≠ .ok (.createIndex i))
    (hfailed : ∀ claim, ∃ cause, a claim = .ends (.failed cause)) :
    ∃ r, call (some a) sql m = (.ends (.ok r), x) ∧ r.withoutProof = q ∧
      ∃ cause, r.proof = some (.failed cause) := by
  obtain ⟨o, o', m', hcall, hplain, hreply, hproof⟩ := h
  obtain ⟨rfl, rfl⟩ : o' = .ok q ∧ m' = x := by
    rw [hnone] at hplain
    cases hplain
    exact ⟨rfl, rfl⟩
  obtain ⟨r, rfl, hr⟩ := map_eq_ok_iff.1 hreply
  obtain ⟨p, hp⟩ := Option.isSome_iff_exists.1 ((hproof r rfl).2 hsql)
  obtain ⟨claim, hclaim⟩ := exists_claim_of_call (congrArg Prod.fst hcall) hp
  obtain ⟨cause, hcause⟩ := hfailed claim
  cases hclaim.symm.trans hcause
  exact ⟨r, hcall, hr, cause, hp⟩

/-- A query is answered although the backend refuses its claim, and a row is inserted although the proof of
it dies before the time for it is over. -/
theorem execute_without_proof_docs : refusing.Returns ∧
    (∃ r, (call (some (attempt refusing (.chosen 7) none .free))
        "SELECT body FROM docs WHERE rank = 1 ORDER BY body LIMIT 1"
        (.memory (memoryAfter [createDocs, insertRanks, indexRanks, insertLate]))).1 = .ends (.ok r) ∧
      r.answer = ⟨["body"], .rows [[.string "a"], [.string "b"], [.string "c"]]⟩ ∧
      ∃ cause, r.proof = some (.failed cause)) ∧
    ∃ r, call (some (attempt dying .transcript (some 1000) .free))
        "INSERT INTO docs (body, rank) VALUES ('d', 1)"
        (.memory (memoryAfter [createDocs, insertRanks, indexRanks])) =
          (.ends (.ok r), .memory (memoryAfter [createDocs, insertRanks, indexRanks, insertLate])) ∧
      ∃ cause, r.proof = some (.failed cause) := by
  refine ⟨returns_refusing, ?_, ?_⟩
  · obtain ⟨q', hq', hanswer⟩ :=
      exists_reply_of_select none parse_selectBodies reaches_late.load select_bodies
    obtain ⟨q, hq, hnone⟩ := exists_call_none (congrArg Except.isOk hq')
    obtain rfl : q = q' := Response.reply.inj (Except.ok.inj (hq.symm.trans hq'))
    obtain ⟨r, hcall, rfl, hfailed⟩ := exists_failed_of_alike
      (execute_without_proof refusing none (fun _ => returns_refusing) (.chosen 7) .free _ _) hnone
      (fun i hi => by cases parse_selectBodies.symm.trans hi) (attempt_refusing _ _)
    exact ⟨r, congrArg Prod.fst hcall, hanswer, hfailed⟩
  · obtain ⟨q, -, hnone⟩ := exists_call_none isOk_insertLate
    obtain ⟨r, hcall, -, hfailed⟩ := exists_failed_of_alike
      (execute_without_proof dying (some 1000) nofun .transcript .free _ _)
      hnone (fun i hi => by cases parse_insertLate.symm.trans hi) (attempt_dying _ _)
    have hafter : memoryAfter [createDocs, insertRanks, indexRanks, insertLate] =
        (insertLate.run (memoryAfter [createDocs, insertRanks, indexRanks])).2 :=
      memoryAfter_append [createDocs, insertRanks, indexRanks] insertLate
    rw [hafter]
    exact ⟨r, hcall, hfailed⟩

end Database

end ProvenTables
