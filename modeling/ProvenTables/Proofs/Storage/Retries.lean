import Mathlib.Tactic
import ProvenTables.Storage.Retrying

/-!
# Retries

A read with a policy is a number of reads, each after the one before it: up to the first one that does
not fail for the moment, or as many as the policy allows (`exists_consumes_read`). A counter of 32 bits
is enough for it.
-/

namespace ProvenTables

/-- The outcome is a failure for the moment. -/
def isTransient {α : Type} : Except StorageError α → Bool
  | .error e => e.isTransient
  | .ok _ => false

namespace RetryPolicy

variable {α σ : Type}

/-- The state after a number of reads. -/
def after (read : σ → Except StorageError α × σ) (n : ℕ) (s : σ) : σ := (fun s => (read s).2)^[n] s

/-- The outcome of the read with a number, counted from zero. -/
def outcomeAt (read : σ → Except StorageError α × σ) (n : ℕ) (s : σ) : Except StorageError α :=
  (read (after read n s)).1

/-- How many reads there are at most. -/
def most (p : RetryPolicy) : ℕ := max 1 p.attempts

/-- The first `k` reads fail for the moment, and the next one is the last: it does not, or it is the
last one of `most`. -/
structure Consumes (most : ℕ) (read : σ → Except StorageError α × σ) (s : σ) (k : ℕ) : Prop where
  lt : k < most
  failed : ∀ i < k, isTransient (outcomeAt read i s) = true
  last : k + 1 = most ∨ isTransient (outcomeAt read k s) = false

/-- The read that is tried again until a counter of 32 bits comes to the limit, as a loop that has no
result if it does not end after the given number of rounds or the counter overflows. -/
def readCounting (p : RetryPolicy) (limit : UInt32) (read : σ → Except StorageError α × σ) :
    ℕ → UInt32 → σ → Option (Outcome α × σ)
  | 0, _, _ => none
  | rounds + 1, attempt, s =>
    match read s with
    | (.ok a, s) => some (⟨.ok a, []⟩, s)
    | (.error e, s) =>
      if e.isTransient then
        if attempt.toNat + 1 < 2 ^ 32 then
          if attempt + 1 < limit then do
            let (o, s) ← p.readCounting limit read rounds (attempt + 1) s
            return ({ o with waits := p.backoff attempt.toNat :: o.waits }, s)
          else some (⟨.error e, []⟩, s)
        else none
      else some (⟨.error e, []⟩, s)

variable {p : RetryPolicy} {read : σ → Except StorageError α × σ}

/-! ## Reads in turn -/

/-- One more read is made before the others. -/
lemma after_succ (n : ℕ) (s : σ) : after read (n + 1) s = after read n (read s).2 := rfl

/-- The outcome of the first read. -/
lemma outcomeAt_zero (s : σ) : outcomeAt read 0 s = (read s).1 := rfl

/-- The outcome of a later read is that of a read from where the first one has led. -/
lemma outcomeAt_succ (n : ℕ) (s : σ) : outcomeAt read (n + 1) s = outcomeAt read n (read s).2 := rfl

/-- A policy allows at least one read. -/
lemma most_eq (p : RetryPolicy) : p.most = p.attempts - 1 + 1 := by
  rw [most]
  omega

/-- A read that ends at once. -/
lemma consumes_zero {most : ℕ} {s : σ} (hmost : 0 < most)
    (h : 1 = most ∨ isTransient (read s).1 = false) : Consumes most read s 0 :=
  ⟨hmost, fun i hi => absurd hi (Nat.not_lt_zero i), h⟩

/-- A read that fails for the moment comes before the ones that follow it. -/
lemma Consumes.succ {most k : ℕ} {s : σ} (h : Consumes most read (read s).2 k)
    (hs : isTransient (read s).1 = true) : Consumes (most + 1) read s (k + 1) := by
  refine ⟨Nat.succ_lt_succ h.lt, fun i hi => ?_, h.last.imp (congrArg (· + 1)) id⟩
  cases i with
  | zero => exact hs
  | succ i => exact h.failed i (Nat.lt_of_succ_lt_succ hi)

/-- No other number of failed reads is greater. -/
lemma Consumes.le {most k k' : ℕ} {s : σ} (h : Consumes most read s k)
    (h' : Consumes most read s k') : k' ≤ k := by
  refine Nat.le_of_not_lt fun hlt => ?_
  rcases h.last with hmost | hlast
  · exact absurd h'.lt (by omega)
  · rw [h'.failed k hlt] at hlast
    cases hlast

/-- There is one such number only. -/
lemma Consumes.unique {most k k' : ℕ} {s : σ} (h : Consumes most read s k)
    (h' : Consumes most read s k') : k = k' :=
  Nat.le_antisymm (h'.le h) (h.le h')

/-! ## Reads with a policy -/

/-- The number of reads that are made is determined by their outcomes. -/
lemma exists_consumes_readFrom (p : RetryPolicy) (read : σ → Except StorageError α × σ)
    (more attempt : ℕ) (s : σ) :
    ∃ k, Consumes (more + 1) read s k ∧ p.readFrom read more attempt s =
      (⟨outcomeAt read k s, (List.range' attempt k).map p.backoff⟩, after read (k + 1) s) := by
  -- a round is the last if no more are allowed, or if it succeeds or fails for good
  induction more generalizing attempt s with
  | zero => exact ⟨0, consumes_zero Nat.one_pos (.inl rfl), rfl⟩
  | succ more ih =>
    obtain ⟨o, s', hread⟩ : ∃ o s', read s = (o, s') := ⟨_, _, rfl⟩
    cases o with
    | ok a =>
      refine ⟨0, consumes_zero (Nat.succ_pos _) (.inr ?_), ?_⟩
      · rw [hread]
        rfl
      · simp only [readFrom, hread, outcomeAt_zero, after_succ, List.range'_zero, List.map_nil]
        rfl
    | error e =>
      cases he : e.isTransient with
      | false =>
        refine ⟨0, consumes_zero (Nat.succ_pos _) (.inr ?_), ?_⟩
        · rw [hread]
          exact he
        · simp only [readFrom, hread, he, Bool.false_eq_true, ↓reduceIte, outcomeAt_zero, after_succ,
            List.range'_zero, List.map_nil]
          rfl
      | true =>
        obtain ⟨k, hk, hfrom⟩ := ih (attempt + 1) s'
        refine ⟨k + 1, ?_, ?_⟩
        · refine Consumes.succ ?_ ?_
          · rw [hread]
            exact hk
          · rw [hread]
            exact he
        · simp only [readFrom, hread, he, ↓reduceIte, hfrom, outcomeAt_succ, after_succ,
            List.range'_succ, List.map_cons]

/-- A read by a policy is the first that does not fail for a while, or the last that is allowed, with a
wait before each further one. -/
theorem exists_consumes_read (p : RetryPolicy) (read : σ → Except StorageError α × σ) (s : σ) :
    ∃ k, Consumes p.most read s k ∧ p.read read s =
      (⟨outcomeAt read k s, (List.range k).map p.backoff⟩, after read (k + 1) s) := by
  simp only [most_eq, List.range_eq_range']
  exact exists_consumes_readFrom p read (p.attempts - 1) 0 s

/-! ## Counters of 32 bits -/

/-- The loop goes on as the reads that are left do. -/
lemma readCounting_eq_readFrom (p : RetryPolicy) (limit : UInt32)
    (read : σ → Except StorageError α × σ) {more rounds : ℕ} {attempt : UInt32} (s : σ)
    (hlimit : attempt.toNat + more + 1 = limit.toNat) (hrounds : more < rounds) :
    p.readCounting limit read rounds attempt s = some (p.readFrom read more attempt.toNat s) := by
  induction more generalizing rounds attempt s with
  | zero =>
    obtain ⟨rounds, rfl⟩ := Nat.exists_eq_succ_of_ne_zero hrounds.ne'
    obtain ⟨o, s', hread⟩ : ∃ o s', read s = (o, s') := ⟨_, _, rfl⟩
    have hfits : attempt.toNat + 1 < 2 ^ 32 := hlimit ▸ limit.toNat_lt
    -- the limit is a `u32`, so the counter does not wrap around on its way to it
    have hend : ¬attempt + 1 < limit := by
      rw [UInt32.lt_iff_toNat_lt, UInt32.toNat_add, UInt32.toNat_one, Nat.mod_eq_of_lt hfits]
      omega
    cases o with
    | ok a => simp only [readCounting, readFrom, hread]
    | error e => simp only [readCounting, readFrom, hread, hfits, hend, ↓reduceIte, ite_self]
  | succ more ih =>
    obtain ⟨rounds, rfl⟩ := Nat.exists_eq_succ_of_ne_zero (Nat.ne_zero_of_lt hrounds)
    obtain ⟨o, s', hread⟩ : ∃ o s', read s = (o, s') := ⟨_, _, rfl⟩
    have hlt := limit.toNat_lt
    have hfits : attempt.toNat + 1 < 2 ^ 32 := by omega
    have hnext : (attempt + 1).toNat = attempt.toNat + 1 := by
      rw [UInt32.toNat_add, UInt32.toNat_one, Nat.mod_eq_of_lt hfits]
    have hgoes : attempt + 1 < limit := by
      rw [UInt32.lt_iff_toNat_lt, hnext]
      omega
    cases o with
    | ok a => simp only [readCounting, readFrom, hread]
    | error e =>
      have hrest : p.readCounting limit read rounds (attempt + 1) s' =
          some (p.readFrom read more (attempt + 1).toNat s') := ih s' (by omega) (by omega)
      simp only [readCounting, readFrom, hread, hfits, hgoes, ↓reduceIte, hrest, hnext]
      split <;> rfl

/-- A counter of 32 bits does not overflow, and the loop ends after as many rounds as are allowed. -/
theorem readCounting_eq_read (p : RetryPolicy) {attempts : UInt32} (h : p.attempts = attempts.toNat)
    (read : σ → Except StorageError α × σ) (s : σ) :
    p.readCounting (max attempts 1) read p.most 0 s = some (p.read read s) := by
  refine readCounting_eq_readFrom p _ read s ?_ ?_
  · rw [UInt32.toNat_max, UInt32.toNat_zero, UInt32.toNat_one, h]
    omega
  · rw [most_eq]
    exact Nat.lt_succ_self _

end RetryPolicy

/-! ## Media -/

namespace Answering

open RetryPolicy

variable {σ τ : Type} {policy : RetryPolicy} {inner : Answering σ}

/-- Under a policy a fetch is a read by the policy. -/
lemma retrying_fetch (policy : RetryPolicy) (inner : Answering σ) (a : Address) (s : σ) :
    retrying policy inner (.fetch a) s =
      ((policy.read (inner (.fetch a)) s).1.result, (policy.read (inner (.fetch a)) s).2) := rfl

/-- A request that is no read is made once. -/
lemma retrying_of_ne_fetch {r : Request} (h : ∀ a, r ≠ .fetch a) (s : σ) :
    retrying policy inner r s = inner r s := by
  cases r with
  | fetch a => exact absurd rfl (h a)
  | _ => rfl

/-- Reads are logged one by one. -/
lemma after_logged (a : Address) (n : ℕ) (s : σ) (log : List Request) :
    after (logged inner (.fetch a)) n (s, log) =
      (after (inner (.fetch a)) n s, log ++ List.replicate n (.fetch a)) := by
  induction n generalizing s log with
  | zero => simp only [List.replicate_zero, List.append_nil]; rfl
  | succ n ih =>
    rw [after_succ, after_succ, List.replicate_succ, List.append_cons, ← ih]
    rfl

/-- The log does not change the outcomes. -/
lemma outcomeAt_logged (a : Address) (n : ℕ) (s : σ) (log : List Request) :
    outcomeAt (logged inner (.fetch a)) n (s, log) = outcomeAt (inner (.fetch a)) n s := by
  rw [outcomeAt, after_logged]
  rfl

/-- The log does not change how many reads fail. -/
lemma consumes_logged {most k : ℕ} {a : Address} {s : σ} (h : Consumes most (inner (.fetch a)) s k)
    (log : List Request) : Consumes most (logged inner (.fetch a)) (s, log) k where
  lt := h.lt
  failed i hi := by
    rw [outcomeAt_logged]
    exact h.failed i hi
  last := by
    rw [outcomeAt_logged]
    exact h.last

/-- A read is written down once for each time that it is made. -/
lemma retrying_logged_fetch {k : ℕ} {a : Address} {s : σ}
    (h : Consumes policy.most (inner (.fetch a)) s k) (log : List Request) :
    retrying policy (logged inner) (.fetch a) (s, log) =
      (outcomeAt (inner (.fetch a)) k s, after (inner (.fetch a)) (k + 1) s,
        log ++ List.replicate (k + 1) (.fetch a)) := by
  obtain ⟨k', hk', hread⟩ := exists_consumes_read policy (logged inner (.fetch a)) (s, log)
  obtain rfl := hk'.unique (consumes_logged h log)
  rw [retrying_fetch, hread, outcomeAt_logged, after_logged]

end Answering

end ProvenTables
