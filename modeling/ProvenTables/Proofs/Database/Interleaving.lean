import ProvenTables.Proofs.Database.PlainTables

/-!
# Interleaved operations

Any number of clients run operations on one memory. Each action starts an operation of a client or
lets a client make its next request, and the actions of different clients follow one another in any
order.
-/

namespace ProvenTables.Database

open Storage

/-- An operation that waits for the answer to its next request. -/
structure Session where
  op : Operation
  /-- The changes that had been made when the operation started. -/
  before : List Change
  request : Request
  next : request.Answer → Procedure DatabaseError Response

/-- An operation that has returned. -/
structure Return where
  op : Operation
  before : List Change
  /-- The changes that had been made when the operation returned. -/
  after : List Change
  outcome : Except DatabaseError Response

/-- The change of an operation that has returned success. -/
def Return.change? (r : Return) : Option Change :=
  match r.outcome with
  | .ok _ => r.op.effect.change?
  | .error _ => none

/-- The change of an operation that has returned is made if it has returned success. -/
lemma Return.change?_eq (r : Return) : r.change? = if r.outcome.isOk then r.op.effect.change? else none := by
  rw [change?]
  cases r.outcome <;> rfl

/-- A memory that several clients run operations on. -/
structure Shared where
  memory : Memory
  sessions : ℕ → Option Session
  /-- The changes in the order of the requests that have registered or moved a table. -/
  changes : List Change
  returns : List Return
  /-- The contents that have been kept. -/
  written : List String

/-- What a client can do. -/
inductive Action where
  | start (client : ℕ) (op : Operation)
  | proceed (client : ℕ)

namespace Shared

/-- An empty memory, on which nothing has been started. -/
def empty : Shared := ⟨.empty, fun _ => none, [], [], []⟩

/-- A client has what is left of its operation. -/
def resume (s : Shared) (client : ℕ) (op : Operation) (before : List Change) :
    Procedure DatabaseError Response → Shared
  | .done o => { s with
      sessions := Function.update s.sessions client none
      returns := s.returns ++ [⟨op, before, s.changes, o⟩] }
  | .step r next => { s with
      sessions := Function.update s.sessions client (some ⟨op, before, r, next⟩) }

/-- A request of an operation is answered. -/
def answer (s : Shared) (op : Operation) (r : Request) : Shared where
  memory := (Memory.answer r s.memory).2
  sessions := s.sessions
  changes :=
    if r.commits (Memory.answer r s.memory).1 then s.changes ++ op.effect.change?.toList
    else s.changes
  returns := s.returns
  written := s.written ++ r.contents

/-- What an action does; a client runs one operation at a time. -/
def act (s : Shared) : Action → Shared
  | .start client op =>
    match s.sessions client with
    | none => s.resume client op s.changes op.procedure
    | some _ => s
  | .proceed client =>
    match s.sessions client with
    | some x => (s.answer x.op x.request).resume client x.op x.before
        (x.next (Memory.answer x.request s.memory).1)
    | none => s

/-- The system after actions. -/
def run (actions : List Action) : Shared := actions.foldl act .empty

end Shared

/-! ## Returns -/

/-- The outcome of an operation is the one that its effect has at a moment between its start and its
return. If it has made a change that moment is the one of the change; and a change that is refused
for a conflict has met another one. -/
def Return.IsExplained {α : Type} (k : Keeping α) (r : Return) : Prop :=
  match r.change? with
  | some c => ∃ cs, r.before <+: cs ∧ r.after = cs ++ [c] ∧
      observe r.outcome = k.observe (k.after cs) r.op.effect
  | none => (∃ cs, r.before <+: cs ∧ cs <+: r.after ∧
      observe r.outcome = k.observe (k.after cs) r.op.effect) ∨
    IsConflict r.outcome ∧ r.op.effect.change?.isSome ∧ r.before ≠ r.after

/-- The changes are those of the operations that have returned success, each one possible after those
before it, and every return is explained by them. -/
structure Shared.IsExplained {α : Type} (k : Keeping α) (s : Shared) : Prop where
  changes : s.changes = s.returns.filterMap Return.change?
  possible : ∀ cs c, cs ++ [c] <+: s.changes → ∃ db, k.change (k.after cs) c = .ok db
  returns : ∀ r ∈ s.returns, r.after <+: s.changes ∧ r.IsExplained k

namespace Shared

/-- The memory and the changes. -/
def world (s : Shared) : World := ⟨s.memory, s.changes⟩

/-- What every action keeps. -/
structure IsValid (contents : List String) (s : Shared) : Prop where
  world : s.world.IsValid contents
  sessions : ∀ client x, s.sessions client = some x → x.before <+: s.changes ∧
    Safe contents (Committed contents x.op.effect) (Finished x.before x.op.effect)
      (.step x.request x.next) s.world
  sound : ∀ c ∈ s.changes, c.IsSound
  explained : s.IsExplained Keeping.stored

variable {contents : List String} {s : Shared}

/-- The last action comes after the others. -/
lemma run_append (actions : List Action) (a : Action) :
    run (actions ++ [a]) = (run actions).act a := by
  rw [run, List.foldl_append]
  rfl

/-- Going on keeps what has been written. -/
@[simp]
lemma written_resume (client : ℕ) (op : Operation) (before : List Change)
    (p : Procedure DatabaseError Response) :
    (s.resume client op before p).written = s.written := by
  cases p <;> rfl

/-- Going on leaves the memory and the changes. -/
@[simp]
lemma world_resume (client : ℕ) (op : Operation) (before : List Change)
    (p : Procedure DatabaseError Response) : (s.resume client op before p).world = s.world := by
  cases p <;> rfl

/-- Going on makes no change. -/
@[simp]
lemma changes_resume (client : ℕ) (op : Operation) (before : List Change)
    (p : Procedure DatabaseError Response) : (s.resume client op before p).changes = s.changes :=
  congrArg World.applied (world_resume client op before p)

/-- What has been written stays written. -/
lemma written_act (s : Shared) (a : Action) : s.written ⊆ (s.act a).written := by
  cases a with
  | start client op =>
    simp only [act]
    split
    · exact (written_resume _ _ _ _).symm ▸ List.Subset.refl _
    · exact List.Subset.refl _
  | proceed client =>
    simp only [act]
    split
    · rw [written_resume]
      exact List.subset_append_left _ _
    · exact List.Subset.refl _

/-! ## Returns -/

/-- An operation that has changed nothing returns no change, and its return is explained. -/
lemma explains_of_finished {op : Operation} {before : List Change} {o : Except DatabaseError Response}
    (h : Finished before op.effect s.world o) :
    Return.change? ⟨op, before, s.changes, o⟩ = none ∧
      Return.IsExplained Keeping.stored ⟨op, before, s.changes, o⟩ := by
  have hchange : Return.change? ⟨op, before, s.changes, o⟩ = none := by
    cases o with
    | error err => rfl
    | ok res =>
      rcases h with ⟨-, -, -, -, herror⟩ | ⟨hconflict, -⟩
      · refine Option.not_isSome_iff_eq_none.1 fun hsome => ?_
        obtain ⟨err, herr⟩ := herror hsome
        cases herr
      · exact hconflict.elim
  refine ⟨hchange, ?_⟩
  rw [Return.IsExplained, hchange]
  rcases h with ⟨cs, hfrom, hto, hseen, -⟩ | hconflict
  · exact .inl ⟨cs, hfrom, hto, hseen⟩
  · exact .inr hconflict

/-- One more return is explained, which follows its change if it has made one. -/
lemma IsExplained.push {α : Type} {k : Keeping α} {s' : Shared} {r : Return} (h : s.IsExplained k)
    (hchanges : s'.changes = s.changes ++ r.change?.toList) (hreturns : s'.returns = s.returns ++ [r])
    (hpossible : ∀ c ∈ r.change?, ∃ db, k.change (k.after s.changes) c = .ok db)
    (hafter : r.after = s'.changes) (hr : r.IsExplained k) : s'.IsExplained k where
  changes := by
    rw [hchanges, hreturns, List.filterMap_append, ← h.changes]
    cases hc : r.change? <;> simp [hc]
  possible cs c hcs := by
    cases hc : r.change? with
    | none =>
      rw [hchanges, hc, Option.toList_none, List.append_nil] at hcs
      exact h.possible cs c hcs
    | some d =>
      rw [hchanges, hc, Option.toList_some, List.prefix_concat_iff] at hcs
      rcases hcs with heq | hcs
      · obtain ⟨rfl, hd⟩ := List.append_inj' heq rfl
        obtain rfl : c = d := List.singleton_injective hd
        exact hpossible c hc
      · exact h.possible cs c hcs
  returns q hq := by
    rw [hreturns, List.mem_append, List.mem_singleton] at hq
    rcases hq with hq | rfl
    · obtain ⟨hbefore, hexplained⟩ := h.returns q hq
      exact ⟨hbefore.trans (hchanges ▸ List.prefix_append _ _), hexplained⟩
    · exact ⟨hafter ▸ List.prefix_refl _, hr⟩

/-! ## Actions -/

/-- A client waits with what is left of its operation, and the others as they did. -/
lemma sessions_resume {client i : ℕ} {op : Operation} {before : List Change}
    {p : Procedure DatabaseError Response} {x : Session}
    (hx : (s.resume client op before p).sessions i = some x) :
    s.sessions i = some x ∨ ∃ r next, p = .step r next ∧ x = ⟨op, before, r, next⟩ := by
  by_cases hi : i = client
  · cases p with
    | done o => simp [resume, hi] at hx
    | step r next => exact .inr ⟨r, next, rfl, by simpa [resume, hi, eq_comm] using hx⟩
  · cases p <;> exact .inl (by simpa [resume, hi] using hx)

/-- An operation that goes on without having made a change. -/
lemma isValid_resume {client : ℕ} {op : Operation} {before : List Change}
    {p : Procedure DatabaseError Response} (h : s.IsValid contents) (hbefore : before <+: s.changes)
    (hp : Safe contents (Committed contents op.effect) (Finished before op.effect) p s.world) :
    (s.resume client op before p).IsValid contents := by
  have hsessions : ∀ i x, (s.resume client op before p).sessions i = some x →
      x.before <+: s.changes ∧ Safe contents (Committed contents x.op.effect)
        (Finished x.before x.op.effect) (.step x.request x.next) s.world := by
    intro i x hx
    rcases sessions_resume hx with hx | ⟨r, next, rfl, rfl⟩
    · exact h.sessions i x hx
    · exact ⟨hbefore, hp⟩
  cases p with
  | step r next =>
    exact ⟨h.world, hsessions, h.sound, h.explained.changes, h.explained.possible, h.explained.returns⟩
  | done o =>
    -- a success would have been returned by the request that made the change
    obtain ⟨hchange, hreturn⟩ := explains_of_finished (hp _ (.refl _) h.world)
    refine ⟨h.world, hsessions, h.sound, h.explained.push ?_ rfl ?_ rfl hreturn⟩
    · rw [hchange, Option.toList_none, List.append_nil, changes_resume]
    · rw [hchange]
      exact fun c hc => by cases hc

/-- A request that moves nothing makes no change. -/
lemma changes_answer_of_quiet {r : Request} (op : Operation)
    (hr : ¬r.commits (Memory.answer r s.memory).1 = true) : (s.answer op r).changes = s.changes :=
  if_neg hr

/-- A request that moves nothing leads the world further. -/
lemma le_answer_of_quiet {op : Operation} {r : Request}
    (hr : ¬r.commits (Memory.answer r s.memory).1 = true) : s.world.Le (s.answer op r).world where
  objects := Memory.grows_answer r s.memory
  applied := by
    rw [world, world, changes_answer_of_quiet op hr]
  registry _ := (Memory.registry_answer hr).symm

/-- A request that has moved nothing keeps every other operation safe. -/
lemma isValid_answer_of_quiet {op : Operation} {r : Request} (h : s.IsValid contents)
    (hr : ¬r.commits (Memory.answer r s.memory).1 = true)
    (hworld : World.IsValid contents ⟨(Memory.answer r s.memory).2, s.changes⟩) :
    (s.answer op r).IsValid contents := by
  have hchanges := changes_answer_of_quiet op hr
  refine ⟨?_, fun i x hx => ?_, fun c hc => h.sound c (hchanges ▸ hc), ⟨?_, ?_, ?_⟩⟩
  · rw [world, hchanges]
    exact hworld
  · obtain ⟨hbefore, hsafe⟩ := h.sessions i x hx
    exact ⟨hchanges.symm ▸ hbefore, hsafe.mono (le_answer_of_quiet hr)⟩
  · exact hchanges.trans h.explained.changes
  · exact fun cs c hcs => h.explained.possible cs c (hchanges ▸ hcs)
  · exact fun q hq => ⟨hchanges.symm ▸ (h.explained.returns q hq).1, (h.explained.returns q hq).2⟩

/-- The request that makes a change returns, and the change follows those before it. -/
lemma isValid_commit {client : ℕ} {x : Session} {o : Except DatabaseError Response}
    (h : s.IsValid contents) (hx : s.sessions client = some x)
    (hr : x.request.commits (Memory.answer x.request s.memory).1 = true)
    (ho : Committed contents x.op.effect s.changes (Memory.answer x.request s.memory).2 o) :
    ((s.answer x.op x.request).resume client x.op x.before (.done o)).IsValid contents := by
  obtain ⟨c, hc, hworld, ⟨res, rfl⟩, hseen⟩ := ho
  obtain ⟨seen, he⟩ := Effect.change?_eq_some_iff.1 hc
  have hchanges : (s.answer x.op x.request).changes = s.changes ++ [c] := by
    rw [answer, if_pos hr, hc]
    rfl
  have hanswer : (s.answer x.op x.request).world =
      ⟨(Memory.answer x.request s.memory).2, s.changes ++ [c]⟩ := by
    rw [world, hchanges]
    rfl
  have hle : s.world.Le (s.answer x.op x.request).world := by
    rw [hanswer]
    refine ⟨Memory.grows_answer _ _, List.prefix_append _ _, fun heq => ?_⟩
    exact absurd heq.symm (by simp [world])
  have hreturn : Return.change? ⟨x.op, x.before, s.changes ++ [c], .ok res⟩ = some c := hc
  refine ⟨?_, fun i y hy => ?_, fun d hd => ?_, h.explained.push
    (r := ⟨x.op, x.before, s.changes ++ [c], .ok res⟩) ?_ ?_ ?_ ?_ ?_⟩
  · rw [world_resume, hanswer]
    exact hworld
  · -- the other clients only see that the world has grown
    rcases sessions_resume hy with hy | ⟨r, next, hdone, -⟩
    · obtain ⟨hbefore, hsafe⟩ := h.sessions i y hy
      rw [changes_resume, world_resume]
      exact ⟨hbefore.trans hle.applied, hsafe.mono hle⟩
    · cases hdone
  · rw [changes_resume, hchanges, List.mem_append, List.mem_singleton] at hd
    rcases hd with hd | rfl
    · exact h.sound d hd
    · exact isSound_effect he
  · rw [changes_resume, hchanges, hreturn, Option.toList_some]
  · rw [← hchanges]
    rfl
  · rw [hreturn]
    rintro d ⟨⟩
    -- the change is possible because its operation sees a success
    rw [he] at hseen
    exact (Keeping.observe_change_eq_ok_iff.1 hseen.symm).1
  · rw [changes_resume, hchanges]
  · rw [Return.IsExplained, hreturn]
    exact ⟨s.changes, (h.sessions client x hx).1, rfl, hseen⟩

/-- What every action keeps, if no two contents have the same address. -/
theorem isValid_act {a : Action} (h : s.IsValid contents) (hno : NoCollision contents)
    (hwritten : (s.act a).written ⊆ contents) : (s.act a).IsValid contents := by
  cases a with
  | start client op =>
    simp only [act]
    split
    · exact isValid_resume h (List.prefix_refl _) ((implements_effect op).safe hno s.world)
    · exact h
  | proceed client =>
    simp only [act] at hwritten ⊢
    split
    · rename_i x hx
      rw [hx, written_resume, answer, List.append_subset] at hwritten
      obtain ⟨hbefore, hsafe⟩ := h.sessions client x hx
      have hstep := hsafe s.world (.refl _) h.world fun c hc => hwritten.2 hc
      split at hstep
      · rename_i hcommits
        obtain ⟨o, hdone, hcommitted⟩ := hstep
        rw [show x.next (Memory.answer x.request s.memory).1 = .done o from hdone]
        exact isValid_commit h hx hcommits hcommitted
      · rename_i hquiet
        have hchanges := changes_answer_of_quiet x.op hquiet
        refine isValid_resume (isValid_answer_of_quiet h hquiet hstep.1) (hchanges ▸ hbefore) ?_
        rw [world, hchanges]
        exact hstep.2
    · exact h

/-- Every order of the actions of all clients leads to a valid system. -/
theorem isValid_run (hno : NoCollision contents) {actions : List Action}
    (hwritten : (run actions).written ⊆ contents) : (run actions).IsValid contents := by
  induction actions using List.reverseRecOn with
  | nil =>
    refine ⟨⟨?_, fun name => rfl⟩, ?_, ?_, ⟨rfl, ?_, ?_⟩⟩
    · intro k c hk
      cases hk
    · intro i x hx
      cases hx
    · intro c hc
      cases hc
    · intro cs c hcs
      simp [run, empty] at hcs
    · intro r hr
      cases hr
  | append_singleton actions a ih =>
    rw [run_append] at hwritten ⊢
    exact isValid_act (ih fun c hc => hwritten (written_act _ a hc)) hno hwritten

/-! ## Plain tables -/

/-- What is seen of stored tables after changes is what is seen of plain ones. -/
lemma observe_after (h : s.IsValid contents)
    (hd : ∀ cs, cs <+: s.changes → IsDated (Keeping.plain.after cs)) {cs : List Change}
    (hcs : cs <+: s.changes) (e : Effect) :
    Keeping.stored.observe (storedAfter cs) e = Keeping.plain.observe (Keeping.plain.after cs) e := by
  rw [storedAfter, Keeping.after_stored (fun c hc => h.sound c (hcs.subset hc))
    fun ds hds => hd ds (hds.trans hcs), Keeping.observe_stored]

/-- A system that stored tables explain is explained by plain ones. -/
lemma isExplained_plain (h : s.IsValid contents)
    (hd : ∀ cs, cs <+: s.changes → IsDated (Keeping.plain.after cs)) :
    s.IsExplained Keeping.plain := by
  refine ⟨h.explained.changes, fun cs c hcs => ?_, fun r hr => ?_⟩
  · obtain ⟨db, hdb⟩ := h.explained.possible cs c hcs
    have hseen := observe_after h hd ((List.prefix_append _ _).trans hcs) (.change c changedAnswer)
    rw [Keeping.observe_change_eq_ok_iff.2 ⟨⟨db, hdb⟩, rfl⟩] at hseen
    exact (Keeping.observe_change_eq_ok_iff.1 hseen.symm).1
  · obtain ⟨hafter, hexplained⟩ := h.explained.returns r hr
    refine ⟨hafter, ?_⟩
    rw [Return.IsExplained] at hexplained ⊢
    split at hexplained
    · obtain ⟨cs, hbefore, hcs, hseen⟩ := hexplained
      have hprefix : cs <+: s.changes := (hcs ▸ List.prefix_append _ _).trans hafter
      exact ⟨cs, hbefore, hcs, hseen.trans (observe_after h hd hprefix _)⟩
    · rcases hexplained with ⟨cs, hbefore, hcs, hseen⟩ | hconflict
      · exact .inl ⟨cs, hbefore, hcs, hseen.trans (observe_after h hd (hcs.trans hafter) _)⟩
      · exact .inr hconflict

end Shared

/-! ## Clients that are left alone -/

/-- The number of requests that a procedure makes when it is run alone. -/
def requests {ε α : Type} : Procedure ε α → Memory → ℕ
  | .done _, _ => 0
  | .step r next, m => requests (next (Memory.answer r m).1) (Memory.answer r m).2 + 1

/-- A client runs an operation while all others wait. -/
def alone (client : ℕ) (op : Operation) (m : Memory) : List Action :=
  .start client op :: List.replicate (requests op.procedure m) (.proceed client)

namespace Shared

/-- A client that is left alone runs what is left of its operation. -/
lemma foldl_proceed (s : Shared) (client : ℕ) (op : Operation) (before : List Change)
    (p : Procedure DatabaseError Response) :
    ∃ cs, (List.replicate (requests p s.memory) (.proceed client)).foldl act
        (s.resume client op before p) =
      ⟨(p.run Memory.answer s.memory).2, Function.update s.sessions client none, cs,
        s.returns ++ [⟨op, before, cs, (p.run Memory.answer s.memory).1⟩],
        s.written ++ p.kept s.memory⟩ := by
  induction p generalizing s with
  | done o =>
    refine ⟨s.changes, ?_⟩
    rw [Procedure.kept, List.append_nil]
    rfl
  | step r next ih =>
    -- the client waits with the request, which is answered by its first action
    obtain ⟨w, hw⟩ : ∃ w : Shared, w = s.resume client op before (.step r next) := ⟨_, rfl⟩
    have hwaits : w.sessions client = some ⟨op, before, r, next⟩ := by
      rw [hw]
      exact Function.update_self _ _ _
    obtain ⟨cs, hcs⟩ := ih (Memory.answer r s.memory).1 (w.answer op r)
    refine ⟨cs, ?_⟩
    have hact : w.act (.proceed client) =
        (w.answer op r).resume client op before (next (Memory.answer r w.memory).1) := by
      simp only [act, hwaits]
    have hmemory : w.memory = s.memory := by rw [hw]; rfl
    rw [← hw, requests, List.replicate_succ, List.foldl_cons, hact]
    rw [answer, hmemory] at hcs
    rw [answer, hmemory]
    refine hcs.trans ?_
    rw [hw]
    simp only [resume, Function.update_idem, List.append_assoc, Procedure.kept, Procedure.run_step]

/-- A client that runs an operation while the others wait runs it alone. -/
lemma foldl_alone {s : Shared} {client : ℕ} (op : Operation) (h : s.sessions client = none) :
    ∃ cs, (alone client op s.memory).foldl act s =
      ⟨(op.run s.memory).2, s.sessions, cs, s.returns ++ [⟨op, s.changes, cs, (op.run s.memory).1⟩],
        s.written ++ op.procedure.kept s.memory⟩ := by
  obtain ⟨cs, hcs⟩ := foldl_proceed s client op s.changes op.procedure
  have hsessions : Function.update s.sessions client none = s.sessions := by
    rw [← h, Function.update_eq_self]
  rw [hsessions] at hcs
  refine ⟨cs, ?_⟩
  rw [alone, List.foldl_cons]
  simp only [act, h]
  exact hcs

end Shared

/-! ## A race -/

section Race

-- the memories are compared by their names and not by what is in them
attribute [local irreducible] memoryAfter

/-- What is left of a change of a table when its registration has been found. -/
def altered (key : Pointer → String) (addition : Table → Except DatabaseError Addition) (p : Pointer) :
    Procedure DatabaseError Written := do
  let t ← (replay p.table p.address).mapError .storage
  let a ← .ofExcept (addition t)
  let c ← commit p.table p.address (a.payload t)
  let q ← request (.repoint (key p) p.address c.history)
  return ⟨t, c, q⟩

/-- A change of a table starts by finding its registration. -/
lemma altering_eq (key : Pointer → String) (name : String)
    (addition : Table → Except DatabaseError Addition) :
    altering key name addition = pointer name >>= altered key addition := by
  simp only [altering, loadTable, bind_assoc, pure_bind]
  rfl

/-- A change of a table that has been moved since its registration was found writes what it adds, and then
meets the conflict. The tables are left as they are. -/
lemma exists_yields_altered (key : Pointer → String) (addition : Table → Except DatabaseError Addition)
    (f : Written → Procedure DatabaseError Response) {m : Memory} {p p' : Pointer} {t : Table}
    {a : Addition} {h : History} (hreplay : (replay p.table p.address).reading? m.objects = some (.ok t))
    (ha : addition t = .ok a) (hhistory : (loadHistory p.address).reading? m.objects = some (.ok h))
    (hp : m.registry.pointer? (key p) = some p') (hmoved : p'.address ≠ p.address) :
    ∃ m', (altered key addition p >>= f).Yields m
        (.error (.storage (.conflict (key p) p.address p'.address))) m'
        (committedContents p.table (a.payload t) h) ∧
      ∀ name l, Follows m name l → Follows m' name l := by
  have hread : ((replay p.table p.address).mapError DatabaseError.storage).reading? m.objects =
      some (.ok t) := by
    rw [Procedure.reading?_mapError, hreplay]
    rfl
  have hconflict := Memory.answer_repoint_of_ne
    (m := { m with objects := committed m.objects p.table (a.payload t) h })
    (Address.ofJson (extended p.table (a.payload t) h).toJson) hp hmoved
  refine ⟨⟨committed m.objects p.table (a.payload t) h, m.registry⟩,
    Procedure.Yields.bind_error ((Procedure.yields_of_reading? hread).bind ?_),
    fun name l hl => hl.grows (grows_committed _ _ _ _) rfl⟩
  simp only [ha]
  exact (yields_commit p.table (a.payload t) hhistory).mapError DatabaseError.storage |>.bind
    ((Procedure.yields_request hconflict).mapError DatabaseError.storage).bind_error

/-- The insertion of the late row, when the registration of its table has been found. -/
def lateInsertionAt (p : Pointer) : Procedure DatabaseError Response :=
  altered Pointer.table (fun t => Addition.rows <$> newRows t lateInsertion) p >>= fun w =>
    .ofExcept (insertReply none lateInsertion w)

/-- The insertion of the late row starts by finding the registration. -/
lemma procedure_insertLate : insertLate.procedure = pointer "docs" >>= lateInsertionAt := by
  rw [insertLate, procedure_execute parse_insertLate]
  change (do return Response.reply (← insert none lateInsertion)) = _
  rw [insert_eq, altering_eq, bind_assoc]
  rfl

/-- What is left of the insertion of the late row when the table has been looked up. -/
def lateInsertionOf : Option Pointer → Procedure DatabaseError Response
  | some p => lateInsertionAt p
  | none => .fail (.unknownTable "docs")

/-- What is left of it when the table had rows and no index. -/
def lateRest : Procedure DatabaseError Response :=
  lateInsertionOf ((memoryAfter [createDocs, insertRanks]).registry.pointer? "docs")

/-- What is left of the insertion depends on the registration only. -/
lemma lateRest_eq {p : Pointer}
    (hp : (memoryAfter [createDocs, insertRanks]).registry.pointer? "docs" = some p) :
    lateRest = lateInsertionAt p := congrArg lateInsertionOf hp

/-- One client looks a table up to insert a row, then another one creates an index over the table, and
then the first one goes on. The table has been created and filled before, and is queried in the end. -/
def race : List Action :=
  alone 0 createDocs (memoryAfter []) ++ alone 0 insertRanks (memoryAfter [createDocs]) ++
    [.start 0 insertLate, .proceed 0] ++
    alone 1 indexRanks (memoryAfter [createDocs, insertRanks]) ++
    List.replicate (requests lateRest (memoryAfter [createDocs, insertRanks, indexRanks])) (.proceed 0) ++
    alone 1 queryBodies (lateRest.run Memory.answer (memoryAfter [createDocs, insertRanks, indexRanks])).2

/-- What the clients write, which includes the row that is not inserted. -/
def raceContents : List String :=
  indexContents ++ committedContents "docs" (.ofRows ranked [lateRow]) ranksHistory

/-- The row that is not inserted adds these addresses. -/
lemma addresses_raceContents : raceContents.map Address.ofText = indexContents.map Address.ofText ++
    [⟨"77203f6baa406e3d5cd27482055b955d8e53a4c179746bf8713fd421205079b7"⟩,
      ⟨"d3dc17fecabe3150215eb44ca207ddede9af18d5b4878fef3c97d6ae0ea3c2fe"⟩] := by
  have hlate : (committedContents "docs" (.ofRows ranked [lateRow]) ranksHistory).map Address.ofText =
      [Address.ofJson (Chunk.single "docs" (.ofRows indexed [lateRow])).toJson,
        Address.ofJson (extended "docs" (.ofRows indexed [lateRow]) ranksHistory).toJson] := rfl
  have hhistory : Address.ofJson (extended "docs" (.ofRows indexed [lateRow]) ranksHistory).toJson =
      ⟨"d3dc17fecabe3150215eb44ca207ddede9af18d5b4878fef3c97d6ae0ea3c2fe"⟩ := by
    rw [extended_eq ofJson_late.1 ofJson_late.2, ranksHistory_eq, docsHistory_eq, Address.ofJson_eq]
    decide +kernel
  rw [raceContents, List.map_append, hlate, ofJson_late.1, hhistory]

/-- What the clients write does not collide. -/
lemma noCollision_raceContents : NoCollision raceContents := by
  refine noCollision_of_nodup ?_
  rw [addresses_raceContents, addresses_indexContents]
  decide

/-- The insertion writes its row, and then finds the table moved. -/
lemma exists_yields_lateRest : ∃ expected found m,
    lateRest.Yields (memoryAfter [createDocs, insertRanks, indexRanks])
      (.error (.storage (.conflict "docs" expected found))) m
      (committedContents "docs" (.ofRows ranked [lateRow]) ranksHistory) ∧
    ∀ name l, Follows (memoryAfter [createDocs, insertRanks, indexRanks]) name l → Follows m name l := by
  obtain ⟨p, hp, hname, haddress, hstored, hreplay⟩ := reaches_ranks.exists_pointer noCollision_ranksContents
  obtain ⟨p', hp', -, haddress', -⟩ := reaches_index.exists_pointer noCollision_indexContents
  have hgrows : (memoryAfter [createDocs, insertRanks]).objects.Grows
      (memoryAfter [createDocs, insertRanks, indexRanks]).objects :=
    grows_memoryAfter [createDocs, insertRanks] indexRanks
  have hmoved : p'.address ≠ p.address := by
    rw [haddress, haddress', ofJson_histories.2.1, ofJson_histories.2.2]
    decide
  have hhistory : (loadHistory p.address).reading?
      (memoryAfter [createDocs, insertRanks, indexRanks]).objects = some (.ok ranksHistory) := by
    rw [haddress]
    exact reading?_loadHistory (hstored.grows hgrows)
  have hread : (replay p.table p.address).reading?
      (memoryAfter [createDocs, insertRanks, indexRanks]).objects = some (.ok ranked) := by
    rw [hname]
    exact Procedure.reading?_grows hgrows hreplay
  have haddition : Addition.rows <$> newRows ranked lateInsertion = .ok (.rows [lateRow]) := rfl
  obtain ⟨m, hyields, hfollows⟩ := exists_yields_altered Pointer.table
    (fun t => Addition.rows <$> newRows t lateInsertion)
    (fun w => .ofExcept (insertReply none lateInsertion w)) hread haddition hhistory
    (hname.symm ▸ hp') hmoved
  rw [hname] at hyields
  exact ⟨p.address, p'.address, m, lateRest_eq hp ▸ hyields, hfollows⟩

namespace Shared

/-- A client that waits with a request is left with it. -/
lemma resume_of_sessions {s : Shared} {client : ℕ} {op : Operation} {before : List Change} {r : Request}
    {next : r.Answer → Procedure DatabaseError Response}
    (h : s.sessions client = some ⟨op, before, r, next⟩) :
    s.resume client op before (.step r next) = s := by
  rw [resume, ← h, Function.update_eq_self]

/-- A client that starts the late insertion and finds the registration of the table waits to read it. -/
lemma act_lookup {s : Shared} {p : Pointer} (h : s.sessions 0 = none)
    (hp : s.memory.registry.pointer? "docs" = some p) (haddress : p.address.isSentinel = false) :
    ∃ sessions r next, lateInsertionAt p = .step r next ∧
      sessions 0 = some ⟨insertLate, s.changes, r, next⟩ ∧
      (∀ client ≠ 0, sessions client = s.sessions client) ∧
      (s.act (.start 0 insertLate)).act (.proceed 0) = { s with sessions := sessions } := by
  obtain ⟨next, hnext⟩ : ∃ next, lateInsertionAt p = .step (.fetch p.address) next := by
    simp only [lateInsertionAt, altered, replay, loadHistory, haddress, Bool.false_eq_true, ↓reduceIte]
    exact ⟨_, rfl⟩
  obtain ⟨found, hprocedure, hfound⟩ : ∃ found, insertLate.procedure = .step (.lookup "docs") found ∧
      ∀ p, found (.ok (some p)) = lateInsertionAt p := ⟨_, procedure_insertLate, fun p => rfl⟩
  have hstart : s.act (.start 0 insertLate) = { s with
      sessions := Function.update s.sessions 0
        (some ⟨insertLate, s.changes, .lookup "docs", found⟩) } := by
    simp only [act, h, hprocedure, resume]
  have hanswer : Memory.answer (.lookup "docs") s.memory = (.ok (some p), s.memory) := by
    rw [Memory.answer, hp]
  refine ⟨Function.update s.sessions 0 (some ⟨insertLate, s.changes, .fetch p.address, next⟩),
    .fetch p.address, next, hnext, Function.update_self _ _ _, fun client hclient => ?_, ?_⟩
  · exact Function.update_of_ne hclient _ _
  · rw [hstart]
    simp only [act, Function.update_self, hanswer, hfound, hnext, resume, answer, Request.commits,
      Request.contents, Function.update_idem, List.append_nil, Bool.false_eq_true, ↓reduceIte]

/-- The operations that have returned, and whether they have returned success. -/
def outcomes (s : Shared) : List (Operation × Bool) := s.returns.map fun r => (r.op, r.outcome.isOk)

/-- Operations have been run one after the other. -/
structure Ran (s : Shared) (ops : List Operation) (outcomes : List (Operation × Bool)) : Prop where
  memory : s.memory = memoryAfter ops
  written : s.written = Database.written ops
  outcomes : s.outcomes = outcomes

/-- One more operation is run while the others wait. -/
lemma Ran.alone {s : Shared} {ops : List Operation} {outcomes : List (Operation × Bool)} {client : ℕ}
    (h : s.Ran ops outcomes) (op : Operation) (hclient : s.sessions client = none) :
    ∃ s', (Database.alone client op (memoryAfter ops)).foldl act s = s' ∧ s'.sessions = s.sessions ∧
      s'.Ran (ops ++ [op]) (outcomes ++ [(op, (op.run (memoryAfter ops)).1.isOk)]) := by
  obtain ⟨cs, hcs⟩ := foldl_alone op hclient
  rw [h.memory] at hcs
  refine ⟨_, hcs, rfl, (memoryAfter_append ops op).symm, ?_, ?_⟩
  · rw [written_append, ← h.written]
  · rw [← h.outcomes]
    exact List.map_append

/-- The table is created with success. -/
lemma isOk_createDocs : (createDocs.run (memoryAfter [])).1.isOk = true :=
  have hno : NoCollision (Database.written [createDocs]) :=
    reaches_docs.written ▸ noCollision_docsContents
  (isOk_iff_exists_change effect_createDocs hno).2 ⟨_, rfl⟩

/-- The rows are inserted with success. -/
lemma isOk_insertRanks : (insertRanks.run (memoryAfter [createDocs])).1.isOk = true :=
  (isOk_iff_exists_addition (effect_execute none parse_insertRanks)
    (reaches_ranks.written ▸ noCollision_ranksContents) reaches_docs.load).2 ⟨_, rfl⟩

/-- The insertion is refused, and then the table is queried with its index. -/
lemma exists_yields_race : ∃ expected found m o,
    lateRest.Yields (memoryAfter [createDocs, insertRanks, indexRanks])
      (.error (.storage (.conflict "docs" expected found))) m
      (committedContents "docs" (.ofRows ranked [lateRow]) ranksHistory) ∧
    queryBodies.procedure.Yields m o m [] ∧ o.isOk = true := by
  have hfollows := follows_lineage (reaches_index.written ▸ noCollision_indexContents) "docs"
  obtain ⟨o, ho⟩ := (effect_queryBodies ▸ implements_effect queryBodies).exists_yields_query
    (lineage "docs" (mutations "docs" [createDocs, insertRanks, indexRanks]))
  obtain ⟨expected, found, m, hrest, hkept⟩ := exists_yields_lateRest
  have hselect : Query.select indexed selectBodies =
      .ok ⟨["body"], .rows [[.string "a"], [.string "b"], [.string "c"]]⟩ := by decide
  obtain ⟨reply, hreply, -⟩ := exists_reply_of_select none parse_selectBodies reaches_index.load hselect
  refine ⟨expected, found, m, o, hrest, ho m (hkept "docs" _ hfollows), ?_⟩
  have hrun := (ho _ hfollows).run
  rw [queryBodies, ← Operation.run] at hrun
  rw [hrun] at hreply
  have houtcome : o = .ok (.reply reply) := hreply
  rw [houtcome]
  rfl

/-- Nothing has been run on the empty memory. -/
lemma ran_empty : empty.Ran [] [] where
  memory := by rw [memoryAfter]; rfl
  written := rfl
  outcomes := rfl

/-- The table is created and filled while no other client runs an operation. -/
lemma exists_ran_ranks : ∃ s : Shared, (Database.alone 0 createDocs (memoryAfter []) ++
      Database.alone 0 insertRanks (memoryAfter [createDocs])).foldl act empty = s ∧
    (∀ client, s.sessions client = none) ∧
    s.Ran [createDocs, insertRanks] [(createDocs, true), (insertRanks, true)] := by
  have hidle : empty.sessions 0 = none := rfl
  obtain ⟨s, hs, hsessions, hran⟩ := ran_empty.alone createDocs hidle
  rw [isOk_createDocs] at hran
  obtain ⟨s', hs', hsessions', hran'⟩ := hran.alone insertRanks (congrFun hsessions 0)
  rw [List.nil_append] at hran' hs'
  rw [isOk_insertRanks] at hran'
  rw [List.foldl_append, hs]
  exact ⟨s', hs', fun client => congrFun (hsessions'.trans hsessions) client, hran'⟩

/-- What is left of the late insertion is refused when the index has been created, and the query that follows
is answered. -/
lemma foldl_refused {s : Shared} {returned : List (Operation × Bool)} {r : Request}
    {next : r.Answer → Procedure DatabaseError Response} {before : List Change}
    (h : s.Ran [createDocs, insertRanks, indexRanks] returned) (hrest : lateRest = .step r next)
    (hwaits : s.sessions 0 = some ⟨insertLate, before, r, next⟩) (hidle : s.sessions 1 = none) :
    ∃ s', (List.replicate (requests lateRest (memoryAfter [createDocs, insertRanks, indexRanks]))
        (Action.proceed 0) ++ Database.alone 1 queryBodies
          (lateRest.run Memory.answer (memoryAfter [createDocs, insertRanks, indexRanks])).2).foldl
        act s = s' ∧
      s'.written = raceContents ∧
      s'.outcomes = returned ++ [(insertLate, false)] ++ [(queryBodies, true)] := by
  obtain ⟨expected, found, m, o, hlate, hquery, ho⟩ := exists_yields_race
  obtain ⟨w, hw, hmemory, hidle, hwritten, houtcomes⟩ : ∃ w : Shared,
      (List.replicate (requests lateRest (memoryAfter [createDocs, insertRanks, indexRanks]))
        (Action.proceed 0)).foldl act s = w ∧ w.memory = m ∧ w.sessions 1 = none ∧
      w.written = raceContents ∧ w.outcomes = returned ++ [(insertLate, false)] := by
    obtain ⟨cs, hcs⟩ := foldl_proceed s 0 insertLate before lateRest
    have hresume : s.resume 0 insertLate before lateRest = s := hrest ▸ resume_of_sessions hwaits
    rw [hresume, h.memory, hlate.run, hlate.kept] at hcs
    refine ⟨_, hcs, rfl, ?_, ?_, ?_⟩
    · rw [← hidle]
      exact Function.update_of_ne Nat.one_ne_zero none s.sessions
    · rw [h.written, reaches_index.written, raceContents]
    · rw [← h.outcomes]
      exact List.map_append
  obtain ⟨cs, hcs⟩ := foldl_alone queryBodies hidle
  rw [hmemory] at hcs
  rw [List.foldl_append, hw, hlate.run]
  refine ⟨_, hcs, ?_, ?_⟩
  · rw [hwritten, hquery.kept, List.append_nil]
  · rw [Operation.run, hquery.run, ← houtcomes, ← ho]
    exact List.map_append

/-- The late insertion is refused, and the other operations are executed. -/
lemma run_race : (run race).written = raceContents ∧ (run race).outcomes =
    [(createDocs, true), (insertRanks, true), (indexRanks, true), (insertLate, false),
      (queryBodies, true)] := by
  obtain ⟨p, hp, -, haddress, -, -⟩ := reaches_ranks.exists_pointer noCollision_ranksContents
  obtain ⟨s, hs, hidle, hran⟩ := exists_ran_ranks
  -- the first client has looked the table up
  obtain ⟨sessions, r, next, hrest, hwaits, hothers, hlookup⟩ := act_lookup (hidle 0) (hran.memory ▸ hp)
    (haddress ▸ isSentinel_ofText _)
  have hran' : Ran { s with sessions := sessions } [createDocs, insertRanks]
      [(createDocs, true), (insertRanks, true)] := ⟨hran.memory, hran.written, hran.outcomes⟩
  have hidle' : sessions 1 = none := (hothers 1 Nat.one_ne_zero).trans (hidle 1)
  -- the second one creates the index
  obtain ⟨t, ht, hsessions, hindexed⟩ := hran'.alone indexRanks hidle'
  rw [isOk_indexRanks] at hindexed
  -- the first one goes on
  obtain ⟨u, hu, hwritten, houtcomes⟩ := foldl_refused hindexed ((lateRest_eq hp).trans hrest)
    ((congrFun hsessions 0).trans hwaits) ((congrFun hsessions 1).trans hidle')
  have hrun : run race = u := by
    rw [List.foldl_append] at hu
    rw [run, race, List.foldl_append, List.foldl_append, List.foldl_append, List.foldl_append, hs,
      List.foldl_cons, List.foldl_cons, List.foldl_nil, hlookup, ht, hu]
  rw [hrun]
  exact ⟨hwritten, houtcomes⟩

/-- What is written in the race does not collide. -/
lemma noCollision_race : NoCollision (run race).written :=
  run_race.1 ▸ noCollision_raceContents

/-- The table is created, gets its rows and gets the index. -/
def raceChanges : List Change :=
  [.create "docs" (.ok docs), .alter "docs" fun t => Addition.rows <$> newRows t rankInsertion,
    .alter "docs" fun t => Addition.index rankDefinition.index <$> newIndex t rankDefinition]

/-- The race makes three changes. -/
lemma changes_race : (run race).changes = raceChanges := by
  have hreturns := congrArg (List.filterMap fun x : Operation × Bool =>
    if x.2 then x.1.effect.change? else none) run_race.2
  rw [outcomes, List.filterMap_map] at hreturns
  have hranks : insertRanks.effect = _ := effect_execute none parse_insertRanks
  have hindex : indexRanks.effect = _ := effect_execute none parse_indexRanks
  have hbodies := effect_queryBodies
  rw [(isValid_run noCollision_race (List.Subset.refl _)).explained.changes,
    show Return.change? = _ from funext Return.change?_eq]
  refine hreturns.trans ?_
  simp only [List.filterMap_cons, ↓reduceIte, effect_createDocs, hranks, hindex, hbodies,
    Bool.false_eq_true]
  rfl

/-- No table of the race has a timestamp with a signed year. -/
lemma isDated_race {cs : List Change} (h : cs <+: (run race).changes) : IsDated (Keeping.plain.after cs) := by
  rw [changes_race] at h
  have hcases : cs = [] ∨ cs = raceChanges.take 1 ∨ cs = raceChanges.take 2 ∨ cs = raceChanges := by
    simpa [raceChanges, List.inits] using (List.mem_inits _ _).2 h
  rcases hcases with rfl | rfl | rfl | rfl
  · exact fun name t ht => by cases ht
  · exact isDated_insert (t := docs) "docs" (by decide)
  · exact isDated_insert (t := ranked) "docs" (by decide)
  · exact isDated_insert (t := indexed) "docs" (by decide)

end Shared

/-- Whatever the order of the requests of all clients, the changes of the operations that return
success, in the order of the requests that made them, are those of a reference database that has every
table as it is loaded, and every outcome is one of the reference database at a moment between the start
and the return of its operation. -/
theorem run_isExplained {actions : List Action} (hno : NoCollision (Shared.run actions).written)
    (hd : ∀ cs, cs <+: (Shared.run actions).changes → IsDated (Keeping.plain.after cs)) :
    (Shared.run actions).IsExplained Keeping.plain ∧ ∀ name,
      load (Shared.run actions).memory name =
        Keeping.plain.find (Keeping.plain.after (Shared.run actions).changes) name := by
  have h := Shared.isValid_run hno (List.Subset.refl _)
  refine ⟨Shared.isExplained_plain h hd, fun name => ?_⟩
  rw [← Keeping.find_stored, ← Keeping.after_stored h.sound hd]
  exact load_of_isValid h.world name

/-- While one client waits to insert a row another one creates an index. The insertion is refused, and the
query that follows is answered from the index, which has every row of the table. -/
theorem run_isExplained_race : NoCollision (Shared.run race).written ∧
    (∀ cs, cs <+: (Shared.run race).changes → IsDated (Keeping.plain.after cs)) ∧
    (Shared.run race).outcomes = [(createDocs, true), (insertRanks, true), (indexRanks, true),
      (insertLate, false), (queryBodies, true)] ∧
    (Shared.run race).IsExplained Keeping.plain ∧
    load (Shared.run race).memory "docs" = .ok indexed := by
  obtain ⟨hexplained, hload⟩ := run_isExplained Shared.noCollision_race fun _ => Shared.isDated_race
  refine ⟨Shared.noCollision_race, fun _ => Shared.isDated_race, Shared.run_race.2, hexplained,
    (hload "docs").trans ?_⟩
  rw [Shared.changes_race]
  rfl

end Race

end ProvenTables.Database
