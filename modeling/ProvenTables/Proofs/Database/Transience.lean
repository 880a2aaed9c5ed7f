import ProvenTables.Proofs.Database.Refinement
import ProvenTables.Proofs.Storage.Retries
import ProvenTables.Storage.Contended

/-!
# Reads that fail for the moment

A medium whose reads fail for the moment now and then answers, once its reads are tried again, like one
whose reads do not fail: as long as no read meets as many failures in a row as there are attempts
(`retrying_exact`). A shared memory of which fewer reads fail is such a medium
(`runAll_contended`).
-/

namespace ProvenTables

open RetryPolicy

/-! ## Failures that change nothing -/

namespace Answering

variable {σ τ : Type} {policy : RetryPolicy} {inner : Answering σ} {steady : Answering τ}
  {R : σ → τ → Prop}

/-- The first medium answers as the second one does, whose reads do not fail for the moment; but its own
reads may, and this changes nothing. -/
structure Wavers (inner : Answering σ) (steady : Answering τ) (R : σ → τ → Prop) : Prop where
  follows : ∀ r s t, R s t →
    ((inner r s).1 = (steady r t).1 ∧ R (inner r s).2 (steady r t).2) ∨
      ∃ a, r = .fetch a ∧ isTransient (inner r s).1 = true ∧ R (inner r s).2 t
  stable : ∀ a t, isTransient (steady (.fetch a) t).1 = false

/-- If the request is a read, not all reads that the policy allows fail for the moment. -/
def Spares (policy : RetryPolicy) (inner : Answering σ) (r : Request) (s : σ) : Prop :=
  ∀ a, r = .fetch a → ∃ i < policy.most, isTransient (outcomeAt (inner (.fetch a)) i s) = false

/-- Reads that fail for the moment leave the medium as the other one is. -/
lemma Wavers.after (h : Wavers inner steady R) {a : Address} {n : ℕ} {s : σ} {t : τ} (hR : R s t)
    (hfailed : ∀ i < n, isTransient (outcomeAt (inner (.fetch a)) i s) = true) :
    R (RetryPolicy.after (inner (.fetch a)) n s) t := by
  induction n generalizing s with
  | zero => exact hR
  | succ n ih =>
    have hfirst := hfailed 0 (Nat.succ_pos n)
    refine ih ?_ fun i hi => hfailed (i + 1) (Nat.succ_lt_succ hi)
    rcases h.follows (.fetch a) s t hR with ⟨hanswer, -⟩ | ⟨-, -, -, hsame⟩
    · rw [outcomeAt_zero, hanswer, h.stable] at hfirst
      cases hfirst
    · exact hsame

/-- A read that is spared is answered as by the other medium. -/
lemma Wavers.fetch (h : Wavers inner steady R) {a : Address} {s : σ} {t : τ} (hR : R s t)
    (hspares : Spares policy inner (.fetch a) s) :
    (retrying policy inner (.fetch a) s).1 = (steady (.fetch a) t).1 ∧
      R (retrying policy inner (.fetch a) s).2 (steady (.fetch a) t).2 := by
  obtain ⟨k, hk, hread⟩ := exists_consumes_read policy (inner (.fetch a)) s
  obtain ⟨i, hi, hstable⟩ := hspares a rfl
  -- the last of the reads does not fail for the moment, also if it is the last one allowed
  have hlast : isTransient (outcomeAt (inner (.fetch a)) k s) = false := by
    rcases hk.last with hmost | hlast
    · rcases Nat.lt_or_ge i k with hik | hik
      · rw [hk.failed i hik] at hstable
        cases hstable
      · rwa [show k = i by omega]
    · exact hlast
  have hafter := h.after hR hk.failed
  have hnext : RetryPolicy.after (inner (.fetch a)) (k + 1) s =
      (inner (.fetch a) (RetryPolicy.after (inner (.fetch a)) k s)).2 :=
    Function.iterate_succ_apply' _ k s
  rw [retrying_fetch, hread, hnext]
  rcases h.follows (.fetch a) _ t hafter with hanswer | ⟨-, -, hfails, -⟩
  · exact hanswer
  · rw [outcomeAt, hfails] at hlast
    cases hlast

/-- Every request is answered as by the other medium. -/
lemma Wavers.answer (h : Wavers inner steady R) {r : Request} {s : σ} {t : τ} (hR : R s t)
    (hspares : Spares policy inner r s) :
    (retrying policy inner r s).1 = (steady r t).1 ∧
      R (retrying policy inner r s).2 (steady r t).2 := by
  by_cases hr : ∃ a, r = .fetch a
  · obtain ⟨a, rfl⟩ := hr
    exact h.fetch hR hspares
  · have hne : ∀ a, r ≠ .fetch a := fun a ha => hr ⟨a, ha⟩
    rw [retrying_of_ne_fetch hne]
    rcases h.follows r s t hR with hanswer | ⟨a, ha, -⟩
    · exact hanswer
    · exact absurd ha (hne a)

end Answering

/-! ## Procedures -/

namespace Procedure

variable {ε α σ τ : Type}

/-- Every request that the procedure makes finds the property in the state in which it is made. -/
def Along (answer : Answering σ) (P : Request → σ → Prop) : Procedure ε α → σ → Prop
  | done _, _ => True
  | step r next, s => P r s ∧ (next (answer r s).1).Along answer P (answer r s).2

/-- What holds of the requests in all states that the answers keep. -/
lemma along_of_invariant {answer : Answering σ} {P : Request → σ → Prop} {I : σ → Prop}
    (hstep : ∀ r s, I s → I (answer r s).2) (hP : ∀ r s, I s → P r s) (p : Procedure ε α) {s : σ}
    (hs : I s) : p.Along answer P s := by
  induction p generalizing s with
  | done o => trivial
  | step r next ih => exact ⟨hP r s hs, ih _ (hstep r s hs)⟩

/-- What every answer keeps is kept by a run. -/
lemma run_of_invariant {answer : Answering σ} {I : σ → Prop} (hstep : ∀ r s, I s → I (answer r s).2)
    (p : Procedure ε α) {s : σ} (hs : I s) : I (p.run answer s).2 := by
  induction p generalizing s with
  | done o => exact hs
  | step r next ih => exact ih _ (hstep r s hs)

/-- Answers that agree in all states that they keep. -/
lemma run_congr {answer answer' : Answering σ} {I : σ → Prop}
    (hstep : ∀ r s, I s → I (answer r s).2) (heq : ∀ r s, I s → answer r s = answer' r s)
    (p : Procedure ε α) {s : σ} (hs : I s) : p.run answer s = p.run answer' s := by
  induction p generalizing s with
  | done o => rfl
  | step r next ih => rw [run_step, run_step, ← heq r s hs, ih _ (hstep r s hs)]

/-- A run under the policy is a run on steady answers, as long as the reads that fail are spared. -/
lemma run_of_wavers {policy : RetryPolicy} {inner : Answering σ} {steady : Answering τ}
    {R : σ → τ → Prop} (h : Answering.Wavers inner steady R) {p : Procedure ε α} {s : σ} {t : τ}
    (hR : R s t) (hspares : p.Along (inner.retrying policy) (inner.Spares policy) s) :
    (p.run (inner.retrying policy) s).1 = (p.run steady t).1 ∧
      R (p.run (inner.retrying policy) s).2 (p.run steady t).2 := by
  induction p generalizing s t with
  | done o => exact ⟨rfl, hR⟩
  | step r next ih =>
    obtain ⟨hanswer, hafter⟩ := h.answer hR hspares.1
    have hrest := ih _ hafter hspares.2
    rw [run_step, run_step, ← hanswer]
    exact hrest

end Procedure

/-! ## Operations -/

namespace Database

variable {σ τ : Type}

/-- Runs operations one after the other, each with its outcome. -/
def runAll (answer : Answering σ) : List Operation → σ → List (Except DatabaseError Response) × σ
  | [], s => ([], s)
  | op :: ops, s =>
    let (o, s) := op.procedure.run answer s
    let (os, s) := runAll answer ops s
    (o :: os, s)

/-- Every request of the operations finds the property in the state in which it is made. -/
def AlongAll (answer : Answering σ) (P : Request → σ → Prop) : List Operation → σ → Prop
  | [], _ => True
  | op :: ops, s =>
    op.procedure.Along answer P s ∧ AlongAll answer P ops (op.procedure.run answer s).2

/-- The first operation is run before the others. -/
lemma runAll_cons (answer : Answering σ) (op : Operation) (ops : List Operation) (s : σ) :
    runAll answer (op :: ops) s =
      ((op.procedure.run answer s).1 :: (runAll answer ops (op.procedure.run answer s).2).1,
        (runAll answer ops (op.procedure.run answer s).2).2) := rfl

/-- Where every state that is kept has a property, all operations are run along it. -/
lemma alongAll_of_invariant {answer : Answering σ} {P : Request → σ → Prop} {I : σ → Prop}
    (hstep : ∀ r s, I s → I (answer r s).2) (hP : ∀ r s, I s → P r s) (ops : List Operation) {s : σ}
    (hs : I s) : AlongAll answer P ops s := by
  induction ops generalizing s with
  | nil => trivial
  | cons op ops ih =>
    exact ⟨Procedure.along_of_invariant hstep hP op.procedure hs,
      ih (Procedure.run_of_invariant hstep op.procedure hs)⟩

/-- Answers that agree on all states that are kept give the same runs. -/
lemma runAll_congr {answer answer' : Answering σ} {I : σ → Prop}
    (hstep : ∀ r s, I s → I (answer r s).2) (heq : ∀ r s, I s → answer r s = answer' r s)
    (ops : List Operation) {s : σ} (hs : I s) : runAll answer ops s = runAll answer' ops s := by
  induction ops generalizing s with
  | nil => rfl
  | cons op ops ih =>
    have hrest := ih (Procedure.run_of_invariant hstep op.procedure hs)
    rw [runAll_cons, runAll_cons, hrest, Procedure.run_congr hstep heq op.procedure hs]

/-- Runs under the policy are runs on steady answers, as long as the reads that fail are spared. -/
lemma runAll_of_wavers {policy : RetryPolicy} {inner : Answering σ} {steady : Answering τ}
    {R : σ → τ → Prop} (h : Answering.Wavers inner steady R) {ops : List Operation} {s : σ} {t : τ}
    (hR : R s t) (hspares : AlongAll (inner.retrying policy) (inner.Spares policy) ops s) :
    (runAll (inner.retrying policy) ops s).1 = (runAll steady ops t).1 ∧
      R (runAll (inner.retrying policy) ops s).2 (runAll steady ops t).2 := by
  induction ops generalizing s t with
  | nil => exact ⟨rfl, hR⟩
  | cons op ops ih =>
    obtain ⟨houtcome, hafter⟩ := Procedure.run_of_wavers h hR hspares.1
    obtain ⟨houtcomes, hend⟩ := ih hafter hspares.2
    rw [runAll_cons, runAll_cons, houtcome, houtcomes]
    exact ⟨rfl, hend⟩

end Database

/-! ## Shared memories -/

namespace Contended

open Answering

/-- A request that is made once. -/
def once : Answering Contended
  | .fetch a, c => fetchOnce a c
  | r, c => answer r c

/-- The reads of a shared memory are tried again, and no other request. -/
lemma answer_eq_retrying (r : Request) (c : Contended) :
    answer r c = once.retrying c.retry r c := by
  cases r <;> rfl

/-- A shared memory with a policy in which nobody else writes. -/
structure IsCalm (policy : RetryPolicy) (c : Contended) (m : Memory) : Prop where
  memory : c.memory = m
  rival : c.rival = none
  retry : c.retry = policy

variable {policy : RetryPolicy} {c : Contended} {m : Memory}

/-- A contended memory whose calm is kept wavers from a memory. -/
lemma wavers_once (policy : RetryPolicy) : Wavers once Memory.answer (IsCalm policy) where
  follows r c m h := by
    obtain ⟨rfl, hrival, hretry⟩ := h
    cases r with
    | fetch a =>
      rw [once, fetchOnce]
      split
      · exact .inl ⟨rfl, rfl, hrival, hretry⟩
      · exact .inr ⟨a, rfl, rfl, rfl, hrival, hretry⟩
    | lookup table =>
      refine .inl ⟨rfl, ?_⟩
      simp only [once, answer, hrival]
      exact ⟨rfl, hrival, hretry⟩
    | keep a content => exact .inl ⟨rfl, rfl, hrival, hretry⟩
    | create table a => exact .inl ⟨rfl, rfl, hrival, hretry⟩
    | repoint table expected new => exact .inl ⟨rfl, rfl, hrival, hretry⟩
    | list => exact .inl ⟨rfl, rfl, hrival, hretry⟩
  stable a m := by
    simp only [Memory.answer, Objects.fetch]
    split <;> rfl

/-! ### Failures to come -/

/-- A read uses one failure up. -/
lemma failing_once_fetch (a : Address) (c : Contended) :
    (once (.fetch a) c).2.failing = c.failing - 1 := by
  rw [once, fetchOnce]
  split
  · rename_i hnone
    exact hnone.trans (by rw [show c.failing = 0 from hnone])
  · rename_i n hn
    rw [show c.failing = n + 1 from hn]
    rfl

/-- A read fails for a while if and only if failures are left. -/
lemma isTransient_once_fetch (a : Address) (c : Contended) :
    isTransient (once (.fetch a) c).1 = decide (0 < c.failing) := by
  rw [once, fetchOnce]
  split
  · rename_i hnone
    rw [show c.failing = 0 from hnone]
    exact (wavers_once c.retry).stable a c.memory
  · rename_i n hn
    rw [show c.failing = n + 1 from hn]
    rfl

/-- Every read uses up a failure. -/
lemma failing_after (a : Address) (n : ℕ) (c : Contended) :
    (after (once (.fetch a)) n c).failing = c.failing - n := by
  induction n generalizing c with
  | zero => rfl
  | succ n ih => rw [after_succ, ih, failing_once_fetch, Nat.sub_sub, Nat.add_comm]

/-- The outcome of a later read fails for a while if and only if as many failures are left. -/
lemma isTransient_outcomeAt (a : Address) (n : ℕ) (c : Contended) :
    isTransient (outcomeAt (once (.fetch a)) n c) = decide (n < c.failing) := by
  rw [outcomeAt, isTransient_once_fetch, failing_after]
  exact decide_eq_decide.2 Nat.sub_pos_iff_lt

/-- Under the policy no failures are added. -/
lemma failing_retrying_le (policy : RetryPolicy) (r : Request) (c : Contended) :
    (once.retrying policy r c).2.failing ≤ c.failing := by
  cases r with
  | fetch a =>
    obtain ⟨k, -, hread⟩ := exists_consumes_read policy (once (.fetch a)) c
    rw [retrying_fetch, hread]
    exact failing_after a (k + 1) c ▸ Nat.sub_le _ _
  | lookup table =>
    simp only [retrying, once, answer]
    split <;> exact le_rfl
  | _ => exact le_rfl

/-- Nobody else writes, and fewer failures are to come than a read has attempts. -/
structure FailsLess (policy : RetryPolicy) (c : Contended) : Prop where
  calm : IsCalm policy c c.memory
  lt : c.failing < policy.most

namespace FailsLess

/-- With fewer failures than attempts every request is spared. -/
lemma spares (h : FailsLess policy c) (r : Request) : Spares policy once r c := by
  intro a _
  refine ⟨c.failing, h.lt, ?_⟩
  rw [isTransient_outcomeAt]
  exact decide_eq_false (Nat.lt_irrefl _)

/-- Requests under the policy leave fewer failures than attempts. -/
lemma retrying (h : FailsLess policy c) (r : Request) :
    FailsLess policy (once.retrying policy r c).2 := by
  obtain ⟨-, hcalm⟩ := (wavers_once policy).answer h.calm (h.spares r)
  exact ⟨⟨rfl, hcalm.rival, hcalm.retry⟩, (failing_retrying_le policy r c).trans_lt h.lt⟩

/-- With fewer failures than attempts a request under the policy is answered as without failures. -/
lemma answer_eq (h : FailsLess policy c) (r : Request) : once.retrying policy r c = answer r c := by
  rw [answer_eq_retrying, h.calm.retry]

end FailsLess

end Contended

/-! ## Answers as without failures -/

namespace Database

open Answering

/-- A shared memory in which nobody else writes and fewer reads are to fail than a read has attempts
answers all operations as a memory does. -/
theorem runAll_contended {policy : RetryPolicy} {c : Contended} (h : c.FailsLess policy)
    (ops : List Operation) :
    (runAll Contended.answer ops c).1 = (runAll Memory.answer ops c.memory).1 ∧
      (runAll Contended.answer ops c).2.memory = (runAll Memory.answer ops c.memory).2 := by
  rw [← runAll_congr (fun r c h => h.retrying r) (fun r c h => h.answer_eq r) ops h]
  obtain ⟨houtcomes, hcalm⟩ := runAll_of_wavers (Contended.wavers_once policy) h.calm
    (alongAll_of_invariant (fun r c h => h.retrying r) (fun r c h => h.spares r) ops h)
  exact ⟨houtcomes, hcalm.memory⟩

/-- A read with a policy makes as many reads as there are failures for the moment before the first
other outcome, and that one, but no more than the policy allows; it waits between them and has the
outcome of the last one. A counter of 32 bits is enough for it. A content is kept with one request. If
no read meets as many failures for the moment in a row as it has attempts, operations have the outcomes
that they have on a medium whose reads do not fail for the moment. -/
theorem retrying_exact {σ : Type} (policy : RetryPolicy) (inner : Answering σ) :
    (∀ a s log, ∃ k, Consumes policy.most (inner (.fetch a)) s k ∧
      policy.read (inner (.fetch a)) s =
        (⟨outcomeAt (inner (.fetch a)) k s, (List.range k).map policy.backoff⟩,
          after (inner (.fetch a)) (k + 1) s) ∧
      inner.logged.retrying policy (.fetch a) (s, log) =
        (outcomeAt (inner (.fetch a)) k s, after (inner (.fetch a)) (k + 1) s,
          log ++ List.replicate (k + 1) (.fetch a))) ∧
    (∀ (attempts : UInt32) a s, policy.attempts = attempts.toNat →
      policy.readCounting (max attempts 1) (inner (.fetch a)) policy.most 0 s =
        some (policy.read (inner (.fetch a)) s)) ∧
    (∀ a content s log, inner.logged.retrying policy (.keep a content) (s, log) =
      ((inner (.keep a content) s).1, (inner (.keep a content) s).2, log ++ [.keep a content])) ∧
    ∀ {τ : Type} (steady : Answering τ) (R : σ → τ → Prop), Wavers inner steady R →
      ∀ ops s t, R s t → AlongAll (inner.retrying policy) (inner.Spares policy) ops s →
        (runAll (inner.retrying policy) ops s).1 = (runAll steady ops t).1 ∧
          R (runAll (inner.retrying policy) ops s).2 (runAll steady ops t).2 := by
  refine ⟨fun a s log => ?_, fun attempts a s hattempts => ?_, fun a content s log => rfl,
    fun steady R h ops s t hR hspares => runAll_of_wavers h hR hspares⟩
  · obtain ⟨k, hk, hread⟩ := exists_consumes_read policy (inner (.fetch a)) s
    exact ⟨k, hk, hread, retrying_logged_fetch hk log⟩
  · exact readCounting_eq_read policy hattempts _ s

/-- Three attempts, with a tenth of a second after the first one. -/
def threeAttempts : RetryPolicy := .ofMillis 100 5000 3

/-- A memory two of whose reads are to fail. -/
def failingTwice : Contended := { Contended.calm .empty threeAttempts with failing := 2 }

/-- A table is created and read. -/
def createAndRead : List Operation := [createNotes, .execute none "SELECT * FROM notes"]

/-- Two failures are fewer than three attempts. -/
lemma failsLess_failingTwice : failingTwice.FailsLess threeAttempts := ⟨⟨rfl, rfl, rfl⟩, by decide⟩

/-- The third of three attempts succeeds. -/
lemma consumes_failingTwice (a : Address) :
    Consumes threeAttempts.most (Contended.once (.fetch a)) failingTwice 2 where
  lt := by decide
  failed i hi := by
    rw [Contended.isTransient_outcomeAt]
    exact decide_eq_true hi
  last := .inl rfl

/-- The third read of an address gives an outcome that is no failure for the moment, after two waits, and
a table is created and read while two reads are to fail as if none did. -/
theorem retrying_exact_twice :
    threeAttempts.read (Contended.once (.fetch .sentinel)) failingTwice =
        (⟨.error (.notFound .sentinel), [10 ^ 8, 2 * 10 ^ 8]⟩,
          RetryPolicy.after (Contended.once (.fetch .sentinel)) 3 failingTwice) ∧
      threeAttempts.attempts = (3 : UInt32).toNat ∧
      threeAttempts.readCounting 3 (Contended.once (.fetch .sentinel)) 3 0 failingTwice =
        some (threeAttempts.read (Contended.once (.fetch .sentinel)) failingTwice) ∧
      Wavers Contended.once Memory.answer (Contended.IsCalm threeAttempts) ∧
      Contended.IsCalm threeAttempts failingTwice .empty ∧
      (runAll (Contended.once.retrying threeAttempts) createAndRead failingTwice).1 =
        (runAll Memory.answer createAndRead .empty).1 := by
  obtain ⟨hreads, hcounts, -, hruns⟩ := retrying_exact threeAttempts Contended.once
  have hwavers := Contended.wavers_once threeAttempts
  have hcalm := failsLess_failingTwice.calm
  refine ⟨?_, rfl, hcounts 3 .sentinel failingTwice rfl, hwavers, hcalm, ?_⟩
  · obtain ⟨k, hk, hread, -⟩ := hreads .sentinel failingTwice []
    obtain rfl := hk.unique (consumes_failingTwice .sentinel)
    exact hread
  · exact (hruns Memory.answer _ hwavers _ _ _ hcalm (alongAll_of_invariant
      (fun r c h => h.retrying r) (fun r c h => h.spares r) _ failsLess_failingTwice)).1

end Database

end ProvenTables
