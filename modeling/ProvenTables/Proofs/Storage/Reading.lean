import ProvenTables.Proofs.SortedMap
import ProvenTables.Proofs.Traverse
import ProvenTables.Storage.Memory

/-!
# Procedures that read

A procedure that does nothing but read objects that are there has one outcome, and keeps it in every
store that has more objects. A store never loses an object or changes its content.
-/

namespace ProvenTables

/-! ## Growing stores -/

namespace Objects

/-- Every object of the first store is in the second one. -/
def Grows (o o' : Objects) : Prop := ∀ k c, o.get? k = some c → o'.get? k = some c

/-- Objects grow to themselves. -/
lemma Grows.refl (o : Objects) : Grows o o := fun _ _ h => h

/-- Objects that grow twice have grown. -/
lemma Grows.trans {o o' o'' : Objects} (h : Grows o o') (h' : Grows o' o'') : Grows o o'' :=
  fun k c hk => h' k c (h k c hk)

/-- After a content is kept a key has what it had, or else the content. -/
lemma get?_keep (o : Objects) (a : Address) (c k : String) :
    (o.keep a c).get? k = (o.get? k).or (if a.text = k then some c else none) := by
  rw [keep]
  split
  · rename_i h
    by_cases hk : a.text = k
    · subst hk
      obtain ⟨d, hd⟩ := Option.isSome_iff_exists.1 h
      rw [hd]
      rfl
    · rw [if_neg hk, Option.or_none]
  · rename_i h
    rw [SortedMap.get?_insert]
    split
    · rename_i hk
      subst hk
      rw [Option.not_isSome_iff_eq_none.1 h]
      rfl
    · rw [Option.or_none]

/-- Keeping a content adds objects only. -/
lemma grows_keep (o : Objects) (a : Address) (c : String) : Grows o (o.keep a c) := by
  intro k d hk
  rw [get?_keep, hk]
  rfl

end Objects

/-- Answering a request adds objects only. -/
lemma Memory.grows_answer (r : Request) (m : Memory) :
    m.objects.Grows (Memory.answer r m).2.objects := by
  cases r with
  | keep a c => exact m.objects.grows_keep a c
  | _ => exact .refl _

namespace Procedure

variable {ε ε' α β : Type}

/-! ## Outcomes -/

/-- The outcome of a procedure that does nothing but read objects that are there. -/
def reading? (objects : Objects) : Procedure ε α → Option (Except ε α)
  | done outcome => some outcome
  | step (.fetch a) next =>
    match objects.get? a.text with
    | some c => (next (.ok c)).reading? objects
    | none => none
  | step _ _ => none

/-- Two procedures in a row read as they do one after the other. -/
lemma reading?_bind (objects : Objects) (p : Procedure ε α) (f : α → Procedure ε β) :
    (p.bind f).reading? objects =
      match p.reading? objects with
      | some (.ok a) => (f a).reading? objects
      | some (.error e) => some (.error e)
      | none => none := by
  induction p with
  | done outcome => cases outcome <;> rfl
  | step r next ih =>
    cases r with
    | fetch a =>
      simp only [bind, reading?]
      cases objects.get? a.text with
      | none => rfl
      | some c => exact ih (.ok c)
    | _ => rfl

/-- After a procedure that reads a result the next one is read. -/
lemma reading?_bind_ok {objects : Objects} {p : Procedure ε α} {f : α → Procedure ε β} {a : α}
    (h : p.reading? objects = some (.ok a)) :
    (p >>= f).reading? objects = (f a).reading? objects := by
  refine (reading?_bind objects p f).trans ?_
  rw [h]

/-- Two procedures in a row read a result if and only if both do. -/
lemma reading?_bind_eq_ok_iff {objects : Objects} {p : Procedure ε α} {f : α → Procedure ε β}
    {b : β} : (p >>= f).reading? objects = some (.ok b) ↔
      ∃ a, p.reading? objects = some (.ok a) ∧ (f a).reading? objects = some (.ok b) := by
  change (p.bind f).reading? objects = _ ↔ _
  rw [reading?_bind]
  cases p.reading? objects with
  | none => simp
  | some o => cases o <;> simp

/-- A function on the outcome goes through reading. -/
lemma reading?_mapOutcome (objects : Objects) (f : Except ε α → Except ε' β) (p : Procedure ε α) :
    (p.mapOutcome f).reading? objects = (p.reading? objects).map f := by
  induction p with
  | done outcome => rfl
  | step r next ih =>
    cases r with
    | fetch a =>
      simp only [mapOutcome, reading?]
      cases objects.get? a.text with
      | none => rfl
      | some c => exact ih (.ok c)
    | _ => rfl

/-- A function on the errors goes through reading. -/
lemma reading?_mapError (objects : Objects) (f : ε → ε') (p : Procedure ε α) :
    (p.mapError f).reading? objects = (p.reading? objects).map (Except.mapError f) :=
  reading?_mapOutcome objects _ p

/-- More objects do not change the outcome. -/
theorem reading?_grows {o o' : Objects} (h : o.Grows o') {p : Procedure ε α}
    {outcome : Except ε α} (hp : p.reading? o = some outcome) : p.reading? o' = some outcome := by
  induction p with
  | done out => exact hp
  | step r next ih =>
    cases r with
    | fetch a =>
      simp only [reading?] at hp ⊢
      cases hc : o.get? a.text with
      | none => rw [hc] at hp; cases hp
      | some c =>
        rw [hc] at hp
        rw [h _ _ hc]
        exact ih _ hp
    | _ => cases hp

/-! ## Runs -/

/-- After a procedure that succeeds the next one is run. -/
lemma run_bind_ok {m m' : Memory} {p : Procedure ε α} {f : α → Procedure ε β} {a : α}
    (h : p.run Memory.answer m = (.ok a, m')) :
    (p >>= f).run Memory.answer m = (f a).run Memory.answer m' := by
  refine (run_bind _ p f m).trans ?_
  rw [h]

/-- After a procedure that fails nothing is run. -/
lemma run_bind_error {m m' : Memory} {p : Procedure ε α} {f : α → Procedure ε β} {e : ε}
    (h : p.run Memory.answer m = (.error e, m')) :
    (p >>= f).run Memory.answer m = (.error e, m') := by
  refine (run_bind _ p f m).trans ?_
  rw [h]

/-- A procedure that is run after another has a result only if the other has one. -/
lemma exists_of_run_bind {m : Memory} {p : Procedure ε α} {f : α → Procedure ε β} {b : β}
    (h : ((p >>= f).run Memory.answer m).1 = .ok b) :
    ∃ a, (p.run Memory.answer m).1 = .ok a ∧
      ((f a).run Memory.answer (p.run Memory.answer m).2).1 = .ok b := by
  obtain ⟨o, m', hp⟩ : ∃ o m', p.run Memory.answer m = (o, m') := ⟨_, _, rfl⟩
  cases o with
  | ok a =>
    rw [run_bind_ok hp] at h
    exact ⟨a, by rw [hp], by rw [hp]; exact h⟩
  | error e =>
    rw [run_bind_error hp] at h
    cases h

/-- A function on the errors goes through a run. -/
lemma run_mapError (m : Memory) (f : ε → ε') (p : Procedure ε α) :
    (p.mapError f).run Memory.answer m =
      ((p.run Memory.answer m).1.mapError f, (p.run Memory.answer m).2) := by
  change (p.mapOutcome _).run Memory.answer m = _
  induction p generalizing m with
  | done outcome => rfl
  | step r next ih => exact ih _ _

/-- A procedure that is run adds objects at most. -/
lemma grows_run (p : Procedure ε α) (m : Memory) :
    m.objects.Grows (p.run Memory.answer m).2.objects := by
  induction p generalizing m with
  | done o => exact .refl _
  | step r next ih => exact (Memory.grows_answer r m).trans (ih _ _)

/-- A procedure that reads gives its outcome and leaves the memory as it is. -/
theorem run_of_reading? {m : Memory} {p : Procedure ε α} {outcome : Except ε α}
    (h : p.reading? m.objects = some outcome) : p.run Memory.answer m = (outcome, m) := by
  induction p with
  | done out =>
    cases h
    rfl
  | step r next ih =>
    cases r with
    | fetch a =>
      simp only [reading?] at h
      cases hc : m.objects.get? a.text with
      | none => rw [hc] at h; cases h
      | some c =>
        rw [hc] at h
        have hfetch : m.objects.fetch a = .ok c := by rw [Objects.fetch, hc]
        rw [run_step]
        simp only [Memory.answer, hfetch]
        exact ih _ h
    | _ => cases h

end Procedure

end ProvenTables
