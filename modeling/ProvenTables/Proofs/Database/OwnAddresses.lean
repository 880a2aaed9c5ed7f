import ProvenTables.Proofs.Database.Composed

/-!
# Contents under their own addresses

Whatever its requests are answered with, the procedure of an operation keeps every content under the
address of the content. What the store is after it follows from the contents it has kept alone.
-/

namespace ProvenTables

namespace Procedure

variable {ε ε' α β : Type}

/-- Whatever the answers are, every content that is kept is kept under its own address. -/
def KeepsOwn : Procedure ε α → Prop
  | done _ => True
  | step r next => r.IsOwn ∧ ∀ a, (next a).KeepsOwn

/-- Two procedures in a row keep contents under their own addresses if both do. -/
lemma KeepsOwn.bind {p : Procedure ε α} {f : α → Procedure ε β} (hp : p.KeepsOwn)
    (hf : ∀ a, (f a).KeepsOwn) : (p >>= f).KeepsOwn := by
  change (p.bind f).KeepsOwn
  induction p with
  | done o =>
    cases o with
    | ok a => exact hf a
    | error e => trivial
  | step r next ih => exact ⟨hp.1, fun a => ih a (hp.2 a)⟩

/-- A function on the errors keeps contents where they are. -/
lemma KeepsOwn.mapError {g : ε → ε'} {p : Procedure ε α} (hp : p.KeepsOwn) :
    (p.mapError g).KeepsOwn := by
  change (p.mapOutcome (Except.mapError g)).KeepsOwn
  induction p with
  | done o => trivial
  | step r next ih => exact ⟨hp.1, fun a => ih a (hp.2 a)⟩

/-- A request keeps its content under its own address, if it is an own one. -/
lemma keepsOwn_request (r : Request) (hr : r.IsOwn) : (request r).KeepsOwn :=
  ⟨hr, fun _ => trivial⟩

/-- What is composed of own requests keeps contents under their own addresses. -/
theorem IsComposed.keepsOwn {p : Procedure ε α} (h : p.IsComposed) : p.KeepsOwn := by
  induction h with
  | done o => trivial
  | request r hr => exact keepsOwn_request r hr
  | bind _ _ hp hf => exact hp.bind hf
  | mapError _ hp => exact hp.mapError

end Procedure

/-- What an operation keeps is under its own address. -/
theorem Database.keepsOwn_operation (op : Operation) : op.procedure.KeepsOwn :=
  (isComposed_operation op).keepsOwn

/-! ## Stores -/

/-- A content that is kept is found under its address, and nothing else is found that was not there. -/
lemma Objects.get?_keep_eq_some_iff {contents : List String} {o : Objects} {c : String}
    (h : o.IsAddressed contents) (hno : NoCollision contents) (hc : c ∈ contents) (k d : String) :
    (o.keep (Address.ofText c) c).get? k = some d ↔
      o.get? k = some d ∨ d = c ∧ (Address.ofText c).text = k := by
  by_cases hk : (Address.ofText c).text = k
  · subst hk
    have hkeep := get?_keep_of_isAddressed h hno hc
    rw [hkeep, Option.some.injEq]
    constructor
    · exact fun heq => .inr ⟨heq.symm, rfl⟩
    · rintro (hd | ⟨heq, -⟩)
      · exact Option.some.inj (hkeep.symm.trans (o.grows_keep _ c _ _ hd))
      · exact heq.symm
  · rw [get?_keep, if_neg hk, Option.or_none]
    simp only [hk, and_false, or_false]

/-- After a procedure an address has the content that it had before, or one that has been kept and is
its own. -/
theorem Procedure.KeepsOwn.get?_run {ε α : Type} {contents : List String} {p : Procedure ε α}
    {m : Memory} (hp : p.KeepsOwn) (hm : m.objects.IsAddressed contents) (hno : NoCollision contents)
    (hkept : p.kept m ⊆ contents) (k d : String) :
    (p.run Memory.answer m).2.objects.get? k = some d ↔
      m.objects.get? k = some d ∨ d ∈ p.kept m ∧ (Address.ofText d).text = k := by
  induction p generalizing m with
  | done o => simp [kept]
  | step r next ih =>
    rw [run_step, kept] at *
    obtain ⟨hown, hnext⟩ := hp
    rw [List.append_subset] at hkept
    cases r with
    | keep a c =>
      cases hown
      have hc : c ∈ contents := hkept.1 List.mem_cons_self
      rw [ih _ (hnext _) (Objects.isAddressed_keep hm hc) hkept.2]
      simp only [Memory.answer, Objects.get?_keep_eq_some_iff hm hno hc, Request.contents,
        List.mem_append, List.mem_singleton, or_and_right, or_assoc]
      refine or_congr_right (or_congr_left (and_congr_right fun heq => ?_))
      rw [heq]
    | _ => exact ih _ (m := (Memory.answer _ m).2) (hnext _) hm hkept.2

end ProvenTables
