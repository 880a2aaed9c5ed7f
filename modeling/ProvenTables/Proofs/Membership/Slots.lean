import Mathlib.Tactic
import ProvenTables.Membership.Workers

/-!
# Slots

Whatever the order of the moves of any number of requests and of their workers, the slots in flight are
the slots that have been taken and not given back, and there are never more of them than there may be.
Every request takes at most one slot, and gives it back once: when its thread ends or when it gets no
thread (`slots_accounted`). A request that is alone learns what `proveWithin` gives (`run_alone`).
-/

namespace ProvenTables.Membership

/-! ## Moves -/

/-- The moves of a request that are possible, with the slots and what is done with them. -/
inductive Moves (job : Job) (slots : Slots) :
    Phase → Move → Phase → Slots → Option SlotUse → Prop
  | acquire (h : slots.inFlight < slots.limit) :
    Moves job slots .idle .acquire .starting ⟨slots.inFlight + 1, slots.limit⟩ (some .taken)
  | refuse (h : slots.limit ≤ slots.inFlight) :
    Moves job slots .idle .acquire (.refused (.busy slots.inFlight)) slots none
  | start : Moves job slots .starting (.start none) (.started none .working none) slots none
  | notStarted (reason : String) :
    Moves job slots .starting (.start (some reason)) (.notStarted reason) slots.release (some .given)
  | ends {outcome message} (r : Except MembershipError (Circuit × Proof)) (h : job.work = .ends r) :
    Moves job slots (.started outcome .working message) .finish
      (.started outcome .leaving (some r)) slots none
  | dies {outcome message} (h : job.work = .dies) :
    Moves job slots (.started outcome .working message) .finish (.started outcome .leaving message)
      slots none
  | leave {outcome message} :
    Moves job slots (.started outcome .leaving message) .leave (.started outcome .ended message)
      slots.release (some .given)
  | receive {thread} (r : Except MembershipError (Circuit × Proof)) :
    Moves job slots (.started none thread (some r)) .receive
      (.started (some (.ofExcept r)) thread none) slots none
  | giveUp {thread message} :
    Moves job slots (.started none thread message) .giveUp
      (.started (some (.failed (.timeout job.timeout))) thread message) slots none
  | disconnect :
    Moves job slots (.started none .ended none) .disconnect
      (.started (some (.failed .noResult)) .ended none) slots none

/-- A move of a task is one of the moves that a task can make. -/
lemma moves_of_move {t : Task} {slots slots' : Slots} {m : Move} {p : Phase}
    {use : Option SlotUse} (h : t.move slots m = some (p, slots', use)) :
    Moves t.job slots t.phase m p slots' use := by
  obtain ⟨job, phase⟩ := t
  simp only [Task.move] at h
  split at h
  case h_1 =>
    by_cases hfree : slots.inFlight < slots.limit
    · simp only [Slots.acquire, hfree, ↓reduceIte] at h
      cases h
      exact .acquire hfree
    · simp only [Slots.acquire, hfree, ↓reduceIte] at h
      cases h
      exact .refuse (Nat.le_of_not_lt hfree)
  case h_4 =>
    split at h <;> cases h
    case h_1 r hwork => exact .ends r hwork
    case h_2 hwork => exact .dies hwork
  all_goals cases h
  case h_2 => exact .start
  case h_3 reason => exact .notStarted reason
  case h_5 => exact .leave
  case h_6 r => exact .receive r
  case h_7 => exact .giveUp
  case h_8 => exact .disconnect

/-! ## Phases -/

/-- What has been done with the slot of a worker. -/
def Thread.uses : Thread → List SlotUse
  | working | leaving => [.taken]
  | ended => [.taken, .given]

/-- The message of a worker is what has become of its work, and its requester learns this or that
nothing comes of it or that the time is over. -/
structure IsHonest (job : Job) (outcome : Option ProofOutcome) (thread : Thread)
    (message : Option (Except MembershipError (Circuit × Proof))) : Prop where
  said : ∀ r, message = some r → job.work = .ends r ∧ thread ≠ .working
  finished : thread ≠ .working →
    job.work = .dies ∨ ∃ r, job.work = .ends r ∧ (outcome = none → message = some r)
  learned : ∀ o, outcome = some o → o = .failed (.timeout job.timeout) ∨
    (job.work = .dies ∧ thread = .ended ∧ o = .failed .noResult) ∨
    ∃ r, job.work = .ends r ∧ thread ≠ .working ∧ o = .ofExcept r

/-- While the work goes on there is nothing to learn but that the time is over. -/
lemma IsHonest.gaveUp {job : Job} {outcome : Option ProofOutcome}
    {message : Option (Except MembershipError (Circuit × Proof))}
    (h : IsHonest job outcome .working message) {o : ProofOutcome} (ho : outcome = some o) :
    o = .failed (.timeout job.timeout) := by
  rcases h.learned o ho with htimeout | ⟨-, hended, -⟩ | ⟨r, -, hthread, -⟩
  · exact htimeout
  · cases hended
  · exact absurd rfl hthread

namespace Phase

/-- What a request has done with slots so far. -/
def uses : Phase → List SlotUse
  | idle | refused _ => []
  | starting => [.taken]
  | notStarted _ => [.taken, .given]
  | started _ thread _ => thread.uses

/-- Whether a task has taken a slot and not given it back. -/
def holds (p : Phase) : Bool := p.uses == [.taken]

/-- A task has used no slot, has taken one, or has taken one and given it back. -/
lemma uses_cases (p : Phase) : p.uses = [] ∨ p.uses = [.taken] ∨ p.uses = [.taken, .given] := by
  cases p with
  | idle => exact .inl rfl
  | refused e => exact .inl rfl
  | starting => exact .inr (.inl rfl)
  | notStarted reason => exact .inr (.inr rfl)
  | started outcome thread message =>
    cases thread with
    | ended => exact .inr (.inr rfl)
    | _ => exact .inr (.inl rfl)

/-- Why there was no slot, if there was none. -/
def refusal? : Phase → Option MembershipError
  | refused e => some e
  | _ => none

/-- A request is refused only if all slots are taken, and else it learns what is so. -/
def IsSound (job : Job) (limit : ℕ) : Phase → Prop
  | refused e => e = .busy limit
  | started outcome thread message => IsHonest job outcome thread message
  | idle | starting | notStarted _ => True

end Phase

namespace Moves

variable {job : Job} {slots slots' : Slots} {p p' : Phase} {m : Move} {use : Option SlotUse}

/-- A move adds its use of a slot to those before it. -/
lemma uses_eq (h : Moves job slots p m p' slots' use) : p'.uses = p.uses ++ use.toList := by
  cases h with
  | receive r => exact (List.append_nil _).symm
  | giveUp => exact (List.append_nil _).symm
  | _ => rfl

/-- No move changes the number of slots. -/
lemma limit_eq (h : Moves job slots p m p' slots' use) : slots'.limit = slots.limit := by
  cases h <;> rfl

/-- A move leads to a sound phase. -/
lemma isSound (h : Moves job slots p m p' slots' use) (hle : slots.inFlight ≤ slots.limit)
    (hp : p.IsSound job slots.limit) : p'.IsSound job slots.limit := by
  cases h with
  | acquire hfree => trivial
  | refuse hfull => rw [Phase.IsSound, Nat.le_antisymm hle hfull]
  | start => exact ⟨nofun, fun h => absurd rfl h, nofun⟩
  | notStarted reason => trivial
  | ends r hwork =>
    refine ⟨fun r' hr => ⟨?_, nofun⟩, fun _ => .inr ⟨r, hwork, fun _ => rfl⟩,
      fun o ho => .inl (hp.gaveUp ho)⟩
    cases hr
    exact hwork
  | dies hwork =>
    refine ⟨fun r hr => ?_, fun _ => .inl hwork, fun o ho => .inl (hp.gaveUp ho)⟩
    exact absurd rfl (hp.said r hr).2
  | leave =>
    refine ⟨fun r hr => ⟨(hp.said r hr).1, nofun⟩, fun _ => hp.finished nofun, fun o ho => ?_⟩
    rcases hp.learned o ho with htimeout | ⟨-, hended, -⟩ | ⟨r, hwork, -, hlearned⟩
    · exact .inl htimeout
    · cases hended
    · exact .inr (.inr ⟨r, hwork, nofun, hlearned⟩)
  | receive r =>
    obtain ⟨hwork, hthread⟩ := hp.said r rfl
    refine ⟨nofun, fun _ => .inr ⟨r, hwork, nofun⟩, fun o ho => ?_⟩
    cases ho
    exact .inr (.inr ⟨r, hwork, hthread, rfl⟩)
  | giveUp =>
    refine ⟨hp.said, fun hthread => ?_, fun o ho => ?_⟩
    · exact (hp.finished hthread).imp_right fun ⟨r, hwork, _⟩ => ⟨r, hwork, nofun⟩
    · cases ho
      exact .inl rfl
  | disconnect =>
    -- a worker whose work has ended has left a message before its thread ends
    have hwork : job.work = .dies := by
      rcases hp.finished nofun with hwork | ⟨r, -, hmessage⟩
      · exact hwork
      · exact nomatch hmessage rfl
    refine ⟨nofun, fun _ => .inl hwork, fun o ho => ?_⟩
    cases ho
    exact .inr (.inl ⟨hwork, rfl, rfl⟩)

/-- No move leaves more proofs running than there are slots. -/
lemma inFlight_le (h : Moves job slots p m p' slots' use) (hle : slots.inFlight ≤ slots.limit) :
    slots'.inFlight ≤ slots.limit := by
  cases h with
  | acquire hfree => exact hfree
  | notStarted reason => exact (Nat.sub_le _ _).trans hle
  | leave => exact (Nat.sub_le _ _).trans hle
  | _ => exact hle

/-- A request asks for a slot once. -/
lemma refusal_eq (h : Moves job slots p m p' slots' use) (hp : p ≠ .idle) :
    p' ≠ .idle ∧ p'.refusal? = p.refusal? := by
  cases h with
  | acquire hfree => exact absurd rfl hp
  | refuse hfull => exact absurd rfl hp
  | _ => exact ⟨nofun, rfl⟩

/-- A slot is given back when there is no thread for the work or the thread ends. -/
lemma of_given (h : Moves job slots p m p' slots' (some .given)) :
    p.holds = true ∧ ((∃ reason, p = .starting ∧ m = .start (some reason)) ∨
      ∃ outcome message, p = .started outcome .leaving message ∧ m = .leave) := by
  cases h with
  | notStarted reason => exact ⟨rfl, .inl ⟨reason, rfl, rfl⟩⟩
  | leave => exact ⟨rfl, .inr ⟨_, _, rfl, rfl⟩⟩

/-- Slots are in flight as they are taken and given back, if no slot is given back that is not in
flight. -/
lemma balance (h : Moves job slots p m p' slots' use) (hpos : p.holds = true → 0 < slots.inFlight) :
    slots'.inFlight + use.toList.count .given = slots.inFlight + use.toList.count .taken := by
  cases h with
  | notStarted reason => exact Nat.sub_add_cancel (hpos rfl)
  | leave => exact Nat.sub_add_cancel (hpos rfl)
  | _ => rfl

/-- A request is one that holds a slot if it takes one, and none if it gives it back. -/
lemma holds_eq (h : Moves job slots p m p' slots' use) :
    p'.holds.toNat + use.toList.count .given = p.holds.toNat + use.toList.count .taken := by
  cases h <;> rfl

end Moves

/-! ## Requests -/

namespace Workers

/-- What a request has done with slots, as it is written down. -/
def usesOf (s : Workers) (i : ℕ) : List SlotUse :=
  s.log.filterMap fun e => if e.1 = i then some e.2 else none

/-- How often something has been done with slots. -/
def count (s : Workers) (use : SlotUse) : ℕ := (s.log.map Prod.snd).count use

/-- The slots in flight are those that have been taken and not given back, which the requests hold that
have taken one and not given it back. -/
structure IsSound (limit : ℕ) (jobs : List Job) (s : Workers) : Prop where
  jobs_eq : s.tasks.map (·.job) = jobs
  limit_eq : s.slots.limit = limit
  inFlight_le : s.slots.inFlight ≤ limit
  balance : s.count .taken = s.slots.inFlight + s.count .given
  held : s.slots.inFlight = s.tasks.countP (·.phase.holds)
  uses : ∀ i, s.usesOf i = s.tasks[i]?.elim [] (·.phase.uses)
  phases : ∀ t ∈ s.tasks, t.phase.IsSound t.job limit

variable {s : Workers} {limit : ℕ} {jobs : List Job} {i : ℕ} {m : Move} {t : Task}

/-- The first move of a run is made first. -/
lemma run_cons (s : Workers) (i : ℕ) (m : Move) (moves : List (ℕ × Move)) :
    s.run ((i, m) :: moves) = (s.act i m).run moves := rfl

/-- What a move of a task does to the workers. -/
lemma act_of_move {p : Phase} {slots : Slots} {use : Option SlotUse} (ht : s.tasks[i]? = some t)
    (h : t.move s.slots m = some (p, slots, use)) :
    s.act i m = ⟨slots, s.tasks.set i ⟨t.job, p⟩, s.log ++ use.toList.map (i, ·)⟩ := by
  simp only [act, ht, h]

/-- After its move a task is in the phase that the move leads to. -/
lemma getElem?_of_move {p : Phase} {slots : Slots} {use : Option SlotUse}
    (ht : s.tasks[i]? = some t) (h : t.move s.slots m = some (p, slots, use)) :
    (s.act i m).tasks[i]? = some ⟨t.job, p⟩ := by
  obtain ⟨hi, -⟩ := List.getElem?_eq_some_iff.1 ht
  rw [act_of_move ht h]
  exact List.getElem?_set_self hi

/-- Nothing happens, or a request makes a move. -/
lemma act_cases (s : Workers) (i : ℕ) (m : Move) :
    s.act i m = s ∨ ∃ t p slots use, s.tasks[i]? = some t ∧ Moves t.job s.slots t.phase m p slots use ∧
      s.act i m = ⟨slots, s.tasks.set i ⟨t.job, p⟩, s.log ++ use.toList.map (i, ·)⟩ := by
  cases ht : s.tasks[i]? with
  | none => exact .inl (by simp only [act, ht])
  | some t =>
    cases hmove : t.move s.slots m with
    | none => exact .inl (by simp only [act, ht, hmove])
    | some r =>
      obtain ⟨p, slots, use⟩ := r
      exact .inr ⟨t, p, slots, use, rfl, moves_of_move hmove, act_of_move ht hmove⟩

/-- While a task holds a slot a slot is in use. -/
lemma pos_of_holds (h : s.IsSound limit jobs) (ht : s.tasks[i]? = some t)
    (hholds : t.phase.holds = true) : 0 < s.slots.inFlight := by
  rw [h.held, List.countP_pos_iff]
  exact ⟨t, List.mem_of_getElem? ht, hholds⟩

/-- A further use of a slot is counted once. -/
lemma count_append (s : Workers) (slots : Slots) (tasks : List Task) (i : ℕ)
    (use : Option SlotUse) (u : SlotUse) :
    count ⟨slots, tasks, s.log ++ use.toList.map (i, ·)⟩ u = s.count u + use.toList.count u := by
  rw [count, List.map_append, List.map_map, List.count_append]
  exact congrArg (fun us => s.count u + List.count u us) (List.map_id _)

/-- A further use of a slot is one of the task that makes it. -/
lemma usesOf_append (s : Workers) (slots : Slots) (tasks : List Task) (i j : ℕ)
    (use : Option SlotUse) :
    usesOf ⟨slots, tasks, s.log ++ use.toList.map (i, ·)⟩ j =
      s.usesOf j ++ if i = j then use.toList else [] := by
  rw [usesOf, List.filterMap_append]
  cases use with
  | none => rw [Option.toList_none, ite_self]; rfl
  | some u =>
    by_cases hij : i = j
    · simp [usesOf, hij]
    · simp [usesOf, hij]

/-- One element is exchanged for another. -/
lemma countP_set_add {α : Type} (f : α → Bool) {l : List α} {i : ℕ} {a : α} (b : α)
    (hl : l[i]? = some a) : (l.set i b).countP f + (f a).toNat = l.countP f + (f b).toNat := by
  induction l generalizing i with
  | nil => cases hl
  | cons c l ih =>
    cases i with
    | zero =>
      cases hl
      rw [List.set_cons_zero, List.countP_cons, List.countP_cons]
      cases f a <;> cases f b <;> rfl
    | succ i =>
      have hrest := ih (i := i) hl
      rw [List.set_cons_succ, List.countP_cons, List.countP_cons]
      omega

/-- Workers that have not started anything are sound. -/
lemma isSound_idle (limit : ℕ) (jobs : List Job) : (idle limit jobs).IsSound limit jobs where
  jobs_eq := by
    simp only [idle, List.map_map]
    exact List.map_id _
  limit_eq := rfl
  inFlight_le := Nat.zero_le _
  balance := rfl
  held := by
    refine (List.countP_eq_zero.2 fun t ht => ?_).symm
    obtain ⟨job, -, rfl⟩ := List.mem_map.1 ht
    exact Bool.false_ne_true
  uses i := by
    simp only [idle, List.getElem?_map]
    cases jobs[i]? <;> rfl
  phases t ht := by
    obtain ⟨job, -, rfl⟩ := List.mem_map.1 ht
    trivial

/-- A move of one request keeps the account. -/
lemma isSound_act (h : s.IsSound limit jobs) (i : ℕ) (m : Move) : (s.act i m).IsSound limit jobs := by
  rcases act_cases s i m with hact | ⟨t, p, slots, use, ht, hmoves, hact⟩
  · rwa [hact]
  obtain ⟨hi, hget⟩ := List.getElem?_eq_some_iff.1 ht
  have hle : s.slots.inFlight ≤ s.slots.limit := h.limit_eq ▸ h.inFlight_le
  have hbalance := hmoves.balance (pos_of_holds h ht)
  rw [hact]
  constructor
  case jobs_eq =>
    have hi' : i < (s.tasks.map (·.job)).length := by rwa [List.length_map]
    have hjob : (s.tasks.map (·.job)).get ⟨i, hi'⟩ = t.job := by
      rw [List.get_eq_getElem, List.getElem_map, hget]
    rw [List.map_set, ← h.jobs_eq]
    exact hjob ▸ List.set_getElem_self hi'
  case limit_eq => exact hmoves.limit_eq.trans h.limit_eq
  -- the slots in flight and the uses change together, by the balance of the step
  case inFlight_le => exact h.limit_eq ▸ hmoves.inFlight_le hle
  case balance =>
    have hbefore := h.balance
    rw [count_append, count_append]
    dsimp only
    omega
  case held =>
    -- only task `i` is in another phase, so the count of holders moves by its own share
    have hholds := hmoves.holds_eq
    have hcount := countP_set_add (·.phase.holds) ⟨t.job, p⟩ ht
    have hbefore := h.held
    dsimp only at hcount ⊢
    omega
  case uses =>
    -- the new uses are those of task `i`
    intro j
    rw [usesOf_append, h.uses]
    by_cases hij : i = j
    · subst hij
      rw [if_pos rfl, ht, List.getElem?_set_self hi]
      exact hmoves.uses_eq.symm
    · rw [if_neg hij, List.getElem?_set_ne hij, List.append_nil]
  case phases =>
    intro t' ht'
    rcases List.mem_or_eq_of_mem_set ht' with hmem | rfl
    · exact h.phases t' hmem
    · have hphase := h.phases t (List.mem_of_getElem? ht)
      rw [← h.limit_eq] at hphase ⊢
      exact hmoves.isSound hle hphase

/-- Every run of moves leaves the workers sound. -/
lemma isSound_run (h : s.IsSound limit jobs) (moves : List (ℕ × Move)) :
    (s.run moves).IsSound limit jobs := by
  induction moves generalizing s with
  | nil => exact h
  | cons a moves ih => exact ih (isSound_act h a.1 a.2)

/-! ## Slots that are asked for -/

/-- A request that has asked for a slot has been refused or not, whatever happens later. -/
lemma exists_of_act (ht : s.tasks[i]? = some t) (hne : t.phase ≠ .idle) (j : ℕ) (m : Move) :
    ∃ t', (s.act j m).tasks[i]? = some t' ∧ t'.phase ≠ .idle ∧
      t'.phase.refusal? = t.phase.refusal? := by
  rcases act_cases s j m with hact | ⟨u, p, slots, use, hu, hmoves, hact⟩
  · exact ⟨t, by rwa [hact], hne, rfl⟩
  obtain ⟨hj, -⟩ := List.getElem?_eq_some_iff.1 hu
  rw [hact]
  by_cases hij : j = i
  · subst hij
    cases hu.symm.trans ht
    exact ⟨⟨t.job, p⟩, List.getElem?_set_self hj, hmoves.refusal_eq hne⟩
  · exact ⟨t, (List.getElem?_set_ne hij).trans ht, hne, rfl⟩

/-- A task that has started keeps its refusal, if it has one. -/
lemma exists_of_run (ht : s.tasks[i]? = some t) (hne : t.phase ≠ .idle)
    (moves : List (ℕ × Move)) :
    ∃ t', (s.run moves).tasks[i]? = some t' ∧ t'.phase.refusal? = t.phase.refusal? := by
  induction moves generalizing s t with
  | nil => exact ⟨t, ht, rfl⟩
  | cons a moves ih =>
    obtain ⟨t', ht', hne', hrefusal⟩ := exists_of_act ht hne a.1 a.2
    obtain ⟨t'', ht'', hrefusal'⟩ := ih ht' hne'
    exact ⟨t'', ht'', hrefusal'.trans hrefusal⟩

/-- A request is refused if and only if all slots are in flight when it asks for one. -/
lemma exists_of_acquire (h : s.IsSound limit jobs) (ht : s.tasks[i]? = some t)
    (hidle : t.phase = .idle) (later : List (ℕ × Move)) :
    ∃ t', ((s.act i .acquire).run later).tasks[i]? = some t' ∧
      t'.phase.refusal? = if s.slots.inFlight = limit then some (.busy limit) else none := by
  have hlimit := h.limit_eq
  have hle := h.inFlight_le
  by_cases hfull : s.slots.inFlight = limit
  · have hmove : t.move s.slots .acquire = some (.refused (.busy limit), s.slots, none) := by
      simp only [Task.move, hidle, Slots.acquire, hlimit, hfull, Nat.lt_irrefl, ↓reduceIte]
    rw [if_pos hfull]
    exact exists_of_run (getElem?_of_move ht hmove) (fun hp => nomatch hp) later
  · have hfree : s.slots.inFlight < s.slots.limit := by omega
    have hmove : t.move s.slots .acquire =
        some (.starting, ⟨s.slots.inFlight + 1, s.slots.limit⟩, some .taken) := by
      simp only [Task.move, hidle, Slots.acquire, hfree, ↓reduceIte]
    rw [if_neg hfull]
    exact exists_of_run (getElem?_of_move ht hmove) (fun hp => nomatch hp) later

/-! ## Slots that are given back -/

/-- No more slots are given back than are in flight. -/
lemma inFlight_of_given (h : s.IsSound limit jobs)
    (hgiven : (s.act i m).log = s.log ++ [(i, .given)]) :
    (s.act i m).slots.inFlight + 1 = s.slots.inFlight ∧ ∃ t, s.tasks[i]? = some t ∧
      ((∃ reason, t.phase = .starting ∧ m = .start (some reason)) ∨
        ∃ outcome message, t.phase = .started outcome .leaving message ∧ m = .leave) := by
  rcases act_cases s i m with hact | ⟨t, p, slots, use, ht, hmoves, hact⟩
  · rw [hact] at hgiven
    exact absurd hgiven (by simp)
  rw [hact] at hgiven ⊢
  have huse : use = some .given := by
    have huses := List.append_cancel_left hgiven
    cases use with
    | none => cases huses
    | some u => cases huses; rfl
  subst huse
  exact ⟨hmoves.balance (pos_of_holds h ht), t, ht, hmoves.of_given.2⟩

/-! ## Moves of one request -/

/-- A request and the slots after moves of the request alone. -/
def walk (t : Task) (slots : Slots) : List Move → Task × Slots
  | [] => (t, slots)
  | m :: own =>
    match t.move slots m with
    | none => walk t slots own
    | some (p, slots, _) => walk ⟨t.job, p⟩ slots own

/-- Moves of one task only are its own walk. -/
lemma run_walk (ht : s.tasks[i]? = some t) (own : List Move) :
    (s.run (own.map (i, ·))).tasks[i]? = some (walk t s.slots own).1 ∧
      (s.run (own.map (i, ·))).slots = (walk t s.slots own).2 := by
  induction own generalizing s t with
  | nil => exact ⟨ht, rfl⟩
  | cons m own ih =>
    cases hmove : t.move s.slots m with
    | none =>
      have hact : s.act i m = s := by simp only [act, ht, hmove]
      rw [List.map_cons, run_cons, hact, walk, hmove]
      exact ih ht
    | some r =>
      obtain ⟨p, slots, use⟩ := r
      have hslots : (s.act i m).slots = slots := by rw [act_of_move ht hmove]
      have hrest := ih (getElem?_of_move ht hmove)
      rw [hslots] at hrest
      rw [List.map_cons, run_cons, walk, hmove]
      exact hrest

/-- A slot whose work does not stall is given back by moves of its request alone. -/
lemma exists_releases (h : s.IsSound limit jobs) (ht : s.tasks[i]? = some t)
    (hholds : t.phase.holds = true) (hwork : t.job.work ≠ .stalls) :
    ∃ own : List Move, own <:+ [.start none, .finish, .leave] ∧
      (s.run (own.map (i, ·))).usesOf i = [.taken, .given] ∧
        (s.run (own.map (i, ·))).slots.inFlight + 1 = s.slots.inFlight := by
  -- a task that holds a slot has yet to start its work, to finish it or to leave
  have hpos := pos_of_holds h ht hholds
  obtain ⟨own, hsuffix, huses, hslots⟩ : ∃ own, own <:+ [.start none, .finish, .leave] ∧
      (walk t s.slots own).1.phase.uses = [.taken, .given] ∧
        (walk t s.slots own).2 = s.slots.release := by
    obtain ⟨⟨work, timeout⟩, phase⟩ := t
    cases phase with
    | idle => cases hholds
    | refused e => cases hholds
    | notStarted reason => cases hholds
    | starting =>
      refine ⟨_, List.suffix_refl _, ?_⟩
      cases work with
      | stalls => exact absurd rfl hwork
      | _ => exact ⟨rfl, rfl⟩
    | started o thread message =>
      cases thread with
      | working =>
        refine ⟨_, List.suffix_cons _ _, ?_⟩
        cases work with
        | stalls => exact absurd rfl hwork
        | _ => exact ⟨rfl, rfl⟩
      | leaving => exact ⟨[.leave], ⟨[.start none, .finish], rfl⟩, rfl, rfl⟩
      | ended => cases hholds
  obtain ⟨hget, hafter⟩ := run_walk ht own
  refine ⟨own, hsuffix, ?_, ?_⟩
  · rw [(isSound_run h _).uses, hget]
    exact huses
  · rw [hafter, hslots]
    exact Nat.sub_add_cancel hpos

/-- A task that no move changes leaves everything as it is. -/
lemma run_of_act (hstuck : ∀ m, s.act i m = s) (own : List Move) : s.run (own.map (i, ·)) = s := by
  induction own with
  | nil => rfl
  | cons m own ih => rw [List.map_cons, run_cons, hstuck, ih]

/-- A request whose work does not stall makes moves until it has given back what it has taken. -/
lemma usesOf_of_act (h : s.IsSound limit jobs) (ht : s.tasks[i]? = some t)
    (hwork : t.job.work ≠ .stalls) (hstuck : ∀ m, s.act i m = s) :
    s.usesOf i = [] ∨ s.usesOf i = [.taken, .given] := by
  rcases t.phase.uses_cases with huses | huses | huses
  · exact .inl (by rw [h.uses, ht, Option.elim_some, huses])
  · obtain ⟨own, -, -, hless⟩ := exists_releases h ht (by rw [Phase.holds, huses]; rfl) hwork
    rw [run_of_act hstuck] at hless
    omega
  · exact .inr (by rw [h.uses, ht, Option.elim_some, huses])

/-! ## One request alone -/

/-- The moves of a request whose requester waits long enough for work that does not stall. -/
def alone : Work (Except MembershipError (Circuit × Proof)) → List Move
  | .ends _ => [.acquire, .start none, .finish, .receive, .leave]
  | .dies => [.acquire, .start none, .finish, .leave, .disconnect]
  | .stalls => [.acquire, .start none, .giveUp]

/-- A request that makes its moves alone learns what a proof within a time limit gives, and leaves the
same slots. -/
theorem run_alone {backend : Backend} {challenge : Challenge} {timeout : ℕ} {claim : Claim}
    (ht : s.tasks[i]? = some ⟨⟨work backend challenge claim, timeout⟩, .idle⟩) :
    ∃ t, (s.run ((alone (work backend challenge claim)).map (i, ·))).tasks[i]? = some t ∧
      (t.phase.outcome?, (s.run ((alone (work backend challenge claim)).map (i, ·))).slots) =
        (some (proveWithin backend challenge timeout claim s.slots).1,
          (proveWithin backend challenge timeout claim s.slots).2) := by
  obtain ⟨hget, hslots⟩ := run_walk ht (alone (work backend challenge claim))
  refine ⟨_, hget, ?_⟩
  rw [hslots]
  by_cases hfree : s.slots.inFlight < s.slots.limit
  · cases hwork : work backend challenge claim <;>
      simp only [proveWithin, alone, walk, Task.move, Slots.acquire, hfree, hwork, ↓reduceIte] <;> rfl
  · cases hwork : work backend challenge claim <;>
      simp only [proveWithin, alone, walk, Task.move, Slots.acquire, hfree, ↓reduceIte] <;> rfl

/-! ## All requests -/

/-- Whatever has happened, the slots in flight are those that have been taken and not given back, and
there are at most as many as there may be. A request is refused if and only if all slots are in flight
when it asks for one. A request whose requester has given up holds its slot until the thread of its
worker has ended. A slot is given back only if it is in flight, when there is no thread for the work or
the thread ends. A slot that is held can be given back, unless the work stalls, and a request that can
make no more moves has given back what it has taken. -/
theorem slots_accounted {limit : ℕ} {jobs : List Job} {moves : List (ℕ × Move)} {s : Workers}
    (hs : (idle limit jobs).run moves = s) :
    s.IsSound limit jobs ∧
    (∀ i t later, s.tasks[i]? = some t → t.phase = .idle →
      ∃ t', ((s.act i .acquire).run later).tasks[i]? = some t' ∧
        t'.phase.refusal? = if s.slots.inFlight = limit then some (.busy limit) else none) ∧
    (∀ i t thread message, s.tasks[i]? = some t →
      t.phase = .started (some (.failed (.timeout t.job.timeout))) thread message →
      s.usesOf i = if thread = .ended then [.taken, .given] else [.taken]) ∧
    (∀ i m, (s.act i m).log = s.log ++ [(i, .given)] →
      (s.act i m).slots.inFlight + 1 = s.slots.inFlight ∧ ∃ t, s.tasks[i]? = some t ∧
        ((∃ reason, t.phase = .starting ∧ m = .start (some reason)) ∨
          ∃ outcome message, t.phase = .started outcome .leaving message ∧ m = .leave)) ∧
    ∀ i t, s.tasks[i]? = some t → t.job.work ≠ .stalls →
      (t.phase.holds = true → ∃ own : List Move, own <:+ [.start none, .finish, .leave] ∧
        (s.run (own.map (i, ·))).usesOf i = [.taken, .given] ∧
          (s.run (own.map (i, ·))).slots.inFlight + 1 = s.slots.inFlight) ∧
      ((∀ m, s.act i m = s) → s.usesOf i = [] ∨ s.usesOf i = [.taken, .given]) := by
  have h : s.IsSound limit jobs := hs ▸ isSound_run (isSound_idle limit jobs) moves
  refine ⟨h, fun i t later ht hidle => exists_of_acquire h ht hidle later,
    fun i t thread message ht hphase => ?_, fun i m hgiven => inFlight_of_given h hgiven,
    fun i t ht hwork => ⟨fun hholds => exists_releases h ht hholds hwork,
      fun hstuck => usesOf_of_act h ht hwork hstuck⟩⟩
  rw [h.uses, ht, Option.elim_some, hphase]
  cases thread <;> rfl

/-- Work that ends after its requester has given up. -/
def slow : Job := ⟨.ends (.error .noColumns), 10 ^ 7⟩

/-- The requester of the first of two requests gives up. -/
def givenUp : Workers := (idle 1 [slow, slow]).run [(0, .acquire), (0, .start none), (0, .giveUp)]

/-- The first of two requests for one slot holds it while its worker goes on. The second one is refused,
and the first one can give the slot back. -/
theorem slots_accounted_givenUp :
    givenUp.slots = ⟨1, 1⟩ ∧ givenUp.usesOf 0 = [.taken] ∧
      (∃ t, (givenUp.act 1 .acquire).tasks[1]? = some t ∧ t.phase.refusal? = some (.busy 1)) ∧
      ∃ own : List Move, (givenUp.run (own.map (0, ·))).usesOf 0 = [.taken, .given] ∧
        (givenUp.run (own.map (0, ·))).slots.inFlight + 1 = 1 := by
  have hfirst : givenUp.tasks[0]? =
      some ⟨slow, .started (some (.failed (.timeout slow.timeout))) .working none⟩ := rfl
  have hrun : (idle 1 [slow, slow]).run [(0, .acquire), (0, .start none), (0, .giveUp)] = givenUp := rfl
  obtain ⟨-, hrefused, hheld, -, hreleased⟩ := slots_accounted hrun
  obtain ⟨own, -, huses, hless⟩ := (hreleased 0 _ hfirst nofun).1 rfl
  exact ⟨rfl, hheld 0 _ _ _ hfirst rfl, hrefused 1 ⟨slow, .idle⟩ [] rfl rfl, own, huses, hless⟩

end Workers

end ProvenTables.Membership
