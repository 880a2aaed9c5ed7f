import ProvenTables.Proofs.Database.Trails

/-!
# Guarded procedures

A procedure is guarded if it registers nothing but what leads to a history of the table, whatever other
guarded procedures do between two of its requests. The procedure of every operation is guarded.
-/

namespace ProvenTables

/-- A content that is kept is kept under its own address. -/
def Request.IsOwn : Request → Prop
  | keep a c => a = Address.ofText c
  | _ => True

namespace Database

open Storage
open Procedure (Reads reading? reading?_grows)

section Guarded

variable {ε ε' α β : Type} {contents kept : List String} {b : Basis}
  {moved : Except ε α → Prop} {post : Basis → List String → Except ε α → Prop}

/-- Each request is made on a valid basis and leads to one, and the outcome and the contents that have
been kept until then satisfy `post` on every valid basis from then on. A request that registers or moves
a table is the last one: what has been kept is part of the basis, and the outcome satisfies `moved`. -/
def Guarded (contents : List String) (moved : Except ε α → Prop)
    (post : Basis → List String → Except ε α → Prop) :
    (kept : List String) → Procedure ε α → Basis → Prop
  | kept, .done o, b => ∀ b', b.Le b' → b'.IsValid contents → post b' kept o
  | kept, .step r next, b => ∀ b', b.Le b' → b'.IsValid contents → r.contents ⊆ contents →
    r.IsOwn ∧
      if r.commits (Memory.answer r b'.memory).1 = true then
        (∃ o, next (Memory.answer r b'.memory).1 = .done o ∧ moved o) ∧
          Basis.IsValid contents ⟨(Memory.answer r b'.memory).2, b'.used ++ kept⟩
      else
        Basis.IsValid contents ⟨(Memory.answer r b'.memory).2, b'.used⟩ ∧
          Guarded contents moved post (kept ++ r.contents) (next (Memory.answer r b'.memory).1)
            ⟨(Memory.answer r b'.memory).2, b'.used⟩

/-- A procedure that registers nothing. -/
abbrev Unmoved (contents : List String) (post : Basis → List String → Except ε α → Prop) :=
  Guarded contents (fun _ : Except ε α => False) post

/-- A procedure is guarded on every later basis. -/
lemma Guarded.mono {p : Procedure ε α} {b' : Basis} (h : Guarded contents moved post kept p b)
    (hle : b.Le b') : Guarded contents moved post kept p b' := by
  cases p with
  | done o => exact fun c hc => h c (hle.trans hc)
  | step r next => exact fun c hc => h c (hle.trans hc)

/-- A procedure is guarded if it is on every later valid basis. -/
lemma guarded_of_forall {p : Procedure ε α}
    (h : ∀ b', b.Le b' → b'.IsValid contents → Guarded contents moved post kept p b') :
    Guarded contents moved post kept p b := by
  cases p with
  | done o => exact fun c hc hvalid => h c hc hvalid c (.refl c) hvalid
  | step r next => exact fun c hc hvalid => h c hc hvalid c (.refl c) hvalid

/-- A procedure that registers nothing, and what comes after it. -/
lemma guarded_bind {p : Procedure ε β} {f : β → Procedure ε α}
    (h : Unmoved contents (fun b kept o => Guarded contents moved post kept
      (match o with
        | .ok x => f x
        | .error e => .done (.error e)) b) kept p b) :
    Guarded contents moved post kept (p >>= f) b := by
  change Guarded contents moved post kept (p.bind f) b
  induction p generalizing b kept with
  | done o =>
    cases o with
    | ok x => exact guarded_of_forall h
    | error e => exact guarded_of_forall h
  | step r next ih =>
    intro c hc hvalid hcontents
    obtain ⟨hown, hstep⟩ := h c hc hvalid hcontents
    refine ⟨hown, ?_⟩
    split at hstep
    · obtain ⟨⟨o, -, hfalse⟩, -⟩ := hstep
      exact hfalse.elim
    · rename_i hquiet
      rw [if_neg hquiet]
      exact ⟨hstep.1, ih _ hstep.2⟩

/-- A function on the errors moves nothing. -/
lemma unmoved_mapError {g : ε → ε'} {p : Procedure ε α}
    {post : Basis → List String → Except ε' α → Prop}
    (h : Unmoved contents (fun b kept o => post b kept (o.mapError g)) kept p b) :
    Unmoved contents post kept (p.mapError g) b := by
  change Guarded _ _ _ _ (p.mapOutcome (Except.mapError g)) b
  induction p generalizing b kept with
  | done o => exact h
  | step r next ih =>
    intro c hc hvalid hcontents
    obtain ⟨hown, hstep⟩ := h c hc hvalid hcontents
    refine ⟨hown, ?_⟩
    split at hstep
    · obtain ⟨⟨o, -, hfalse⟩, -⟩ := hstep
      exact hfalse.elim
    · rename_i hquiet
      rw [if_neg hquiet]
      exact ⟨hstep.1, ih _ hstep.2⟩

/-- A procedure that reads objects that are there has its outcome on every later basis. -/
lemma guarded_of_reading? {p : Procedure ε α} {o : Except ε α}
    (hp : p.reading? b.memory.objects = some o)
    (h : ∀ b', b.Le b' → b'.IsValid contents → post b' kept o) :
    Guarded contents moved post kept p b := by
  induction p generalizing b with
  | done out =>
    cases hp
    exact h
  | step r next ih =>
    -- only requests for objects are answered without the registry
    cases r with
    | fetch a =>
      intro c hc hvalid _
      simp only [reading?] at hp
      cases hget : b.memory.objects.get? a.text with
      | none => rw [hget] at hp; cases hp
      | some content =>
        rw [hget] at hp
        have hfetch : c.memory.objects.fetch a = .ok content := by
          rw [Objects.fetch, hc.objects _ _ hget]
        rw [if_neg (by simp [Request.commits])]
        refine ⟨trivial, hvalid, ?_⟩
        simp only [Memory.answer, hfetch, Request.contents, List.append_nil]
        refine ih _ (reading?_grows hc.objects hp) fun d hd => h d (hc.trans hd)
    | _ => cases hp

/-- Looking a table up goes on with its registration on some later basis. -/
lemma guarded_lookup {name : String} {f : Option Pointer → Procedure DatabaseError α}
    {moved : Except DatabaseError α → Prop}
    {post : Basis → List String → Except DatabaseError α → Prop}
    (h : ∀ b', b.Le b' → b'.IsValid contents →
      Guarded contents moved post kept (f (b'.memory.registry.pointer? name)) b') :
    Guarded contents moved post kept (request (.lookup name) >>= f) b := by
  intro c hc hvalid _
  rw [if_neg (by simp [Request.commits])]
  refine ⟨trivial, hvalid, ?_⟩
  simp only [Request.contents, List.append_nil]
  exact h c hc hvalid

/-- A value that is put is stored from then on. -/
lemma unmoved_put {v : Json} {post : Basis → List String → Except StorageError Address → Prop}
    (hno : NoCollision contents)
    (h : ∀ b', b.Le b' → b'.IsValid contents → Stored b'.memory.objects v →
      post b' (kept ++ [v.canonical]) (.ok (Address.ofJson v))) :
    Unmoved contents post kept (put v) b := by
  intro c hc hvalid hcontents
  have hv : v.canonical ∈ contents := hcontents List.mem_cons_self
  rw [if_neg (by simp [Request.commits])]
  refine ⟨rfl, Basis.isValid_keep hvalid hv, fun d hd hdvalid => ?_⟩
  have hstored : Stored (c.memory.objects.put v) v := Objects.stored_put hvalid.addressed hno hv
  have hkeep : c.Le ⟨{ c.memory with objects := c.memory.objects.put v }, c.used⟩ :=
    ⟨c.memory.objects.grows_put v, List.Subset.refl _⟩
  exact h d (hc.trans (hkeep.trans hd)) hdvalid (hstored.grows hd.objects)

end Guarded

/-! ## Committing -/

variable {contents kept : List String} {b : Basis} {name : String}

/-- A payload is written behind a history of the table, with its chunk and the longer history kept. -/
lemma unmoved_commit {table : String} {previous : Address} {p : Payload} {columns : List Column}
    {h : History} {post : Basis → List String → Except StorageError Commit → Prop}
    (hno : NoCollision contents) (hdistinct : (columns.map (·.name)).Nodup)
    (hcolumns : p.HasColumns columns) (hencoded : p.IsEncoded)
    (hload : (loadHistory previous).reading? b.memory.objects = some (.ok h))
    (hes : b.HasChunks table columns h.entries)
    (hpost : ∀ b' kept' c, b.Le b' → b'.IsValid contents →
      Basis.Leads ⟨b'.memory, b'.used ++ kept'⟩ table c.history columns (extended table p h) →
      post b' kept' (.ok c)) :
    Unmoved contents post kept (Storage.commit table previous p) b := by
  refine guarded_bind (guarded_bind (guarded_of_reading? hload fun b₁ h₁ _ => ?_))
  refine guarded_bind (unmoved_put hno fun b₂ h₂ _ hchunk => ?_)
  refine guarded_bind (unmoved_put hno fun b₃ h₃ _ hhistory => ?_)
  intro b₄ h₄ _ b₅ h₅ hvalid
  have hlater := h₄.trans h₅
  have hle := h₁.trans (h₂.trans (h₃.trans hlater))
  refine hpost b₅ _ _ hle hvalid ?_
  refine Basis.leads_extended hdistinct (hes.mono (hle.append _)) hcolumns hencoded ⟨?_, ?_⟩ ⟨?_, ?_⟩
  · exact hchunk.grows (h₃.trans hlater).objects
  · simp
  · exact hhistory.grows hlater.objects
  · simp [extended]

/-! ## Operations -/

/-- A procedure whose outcome is a success if it registers something. -/
abbrev IsGuarded (contents kept : List String) (p : Procedure DatabaseError Response) (b : Basis) :
    Prop :=
  Guarded contents (fun o => ∃ r, o = .ok r) (fun _ _ _ => True) kept p b

variable {respond : Written → Except DatabaseError Response}

/-- Creating a table is guarded. -/
theorem guarded_creating {table : Except DatabaseError Table} (hno : NoCollision contents)
    (htable : ∀ t, table = .ok t → (t.columns.map (·.name)).Nodup)
    (hrespond : ∀ x, x.pointer.table = name → ∃ r, respond x = .ok r) :
    IsGuarded contents kept (creating name table >>= fun x => .ofExcept (respond x)) b := by
  simp only [creating, bind_assoc]
  refine guarded_lookup fun b₁ h₁ _ => ?_
  split
  · exact fun _ _ _ => trivial
  cases table with
  | error e => exact fun _ _ _ => trivial
  | ok t =>
    simp only [bind_assoc, ofExcept_ok_bind]
    refine guarded_bind (unmoved_mapError ?_)
    refine unmoved_commit hno (htable t rfl) (Payload.hasColumns_ofTable t)
      (Payload.isEncoded_ofTable t) (h := .empty) rfl (fun e he => by cases he)
      fun b₂ kept' c h₂ _ hleads => ?_
    intro b₃ h₃ hvalid _
    refine ⟨trivial, ?_⟩
    by_cases hexists : b₃.memory.registry.pointers.contains name = true
    · -- another client has created the table
      rw [Memory.answer_create_of_contains _ hexists, if_neg (by simp [Request.commits])]
      exact ⟨hvalid, fun _ _ _ => trivial⟩
    · obtain ⟨p, r, hanswer, hname, haddress, hmoves⟩ := Memory.answer_create c.history hexists
      obtain ⟨res, hres⟩ := hrespond ⟨t, c, p⟩ hname
      rw [hanswer, if_pos (by simp [Request.commits])]
      refine ⟨⟨.ok res, ?_, res, rfl⟩, ?_⟩
      · rw [← hres]
        rfl
      · refine Basis.isValid_move (hvalid.mono (List.subset_append_left _ kept')) hmoves ?_
        rw [hname, haddress]
        exact ⟨_, _, hleads.mono (h₃.append_append kept')⟩

/-- A table is loaded with the columns of the history that its registration leads to. -/
lemma unmoved_loadTable {post : Basis → List String → Except DatabaseError (Pointer × Table) → Prop}
    (herror : ∀ b' e, b.Le b' → b'.IsValid contents → post b' kept (.error e))
    (hok : ∀ b' p t columns h, b.Le b' → b'.IsValid contents → p.table = name →
      b'.Leads name p.address columns h → t.columns = columns → post b' kept (.ok (p, t))) :
    Unmoved contents post kept (loadTable name) b := by
  refine guarded_bind (guarded_lookup fun b₁ h₁ hvalid₁ => ?_)
  cases hp : b₁.memory.registry.pointer? name with
  | none => exact fun b₂ h₂ _ b₃ h₃ hvalid₃ => herror b₃ _ (h₁.trans (h₂.trans h₃)) hvalid₃
  | some p =>
    obtain ⟨hname, columns, h, hleads⟩ := hvalid₁.leads name p hp
    intro b₂ h₂ _
    obtain ⟨o, ho, hcolumns⟩ := (hleads.mono h₂).reads_replay
    have hread : ((replay p.table p.address).mapError DatabaseError.storage).reading?
        b₂.memory.objects = some (o.mapError .storage) := by
      rw [Procedure.reading?_mapError, hname, ho]
      rfl
    refine guarded_bind (guarded_of_reading? hread fun b₃ h₃ _ => ?_)
    have hle₃ := h₁.trans (h₂.trans h₃)
    cases o with
    | error e => exact fun b₄ h₄ hvalid₄ => herror b₄ _ (hle₃.trans h₄) hvalid₄
    | ok t =>
      intro b₄ h₄ hvalid₄
      exact hok b₄ p t columns h (hle₃.trans h₄) hvalid₄ hname
        (hleads.mono (h₂.trans (h₃.trans h₄))) (hcolumns t rfl)

/-- The last request of an addition: it moves the table to what leads to a longer history, if nobody
else has moved it. -/
lemma guarded_repoint {expected new : Address} {columns : List Column} {h : History}
    {next : Pointer → Except DatabaseError Response}
    (hleads : Basis.Leads ⟨b.memory, b.used ++ kept⟩ name new columns h)
    (hnext : ∀ q, q.table = name → ∃ r, next q = .ok r) :
    IsGuarded contents kept (request (.repoint name expected new) >>= fun q => .ofExcept (next q)) b := by
  intro c hc hvalid _
  refine ⟨trivial, ?_⟩
  cases hp : c.memory.registry.pointer? name with
  | none =>
    rw [Memory.answer_repoint_of_none _ _ hp, if_neg (by simp [Request.commits])]
    exact ⟨hvalid, fun _ _ _ => trivial⟩
  | some p =>
    by_cases hmoved : p.address = expected
    · obtain ⟨q, r, hanswer, hname, haddress, hmoves⟩ :=
        Memory.answer_repoint new hp (hvalid.leads name p hp).1 hmoved
      obtain ⟨res, hres⟩ := hnext q hname
      rw [hanswer, if_pos (by simp [Request.commits])]
      refine ⟨⟨.ok res, ?_, res, rfl⟩, ?_⟩
      · rw [← hres]
        rfl
      · refine Basis.isValid_move (hvalid.mono (List.subset_append_left _ kept)) hmoves ?_
        rw [hname, haddress]
        exact ⟨_, _, hleads.mono (hc.append_append kept)⟩
    · rw [Memory.answer_repoint_of_ne _ hp hmoved, if_neg (by simp [Request.commits])]
      exact ⟨hvalid, fun _ _ _ => trivial⟩

/-- Altering a table is guarded. -/
theorem guarded_altering {key : Pointer → String} {addition : Table → Except DatabaseError Addition}
    (hno : NoCollision contents) (hkey : ∀ p, p.table = name → key p = name)
    (hrespond : ∀ x a, addition x.table = .ok a → x.pointer.table = name → ∃ r, respond x = .ok r) :
    IsGuarded contents kept (altering key name addition >>= fun x => .ofExcept (respond x)) b := by
  simp only [altering, bind_assoc]
  refine guarded_bind (unmoved_loadTable (fun _ _ _ _ => fun _ _ _ => trivial) ?_)
  intro b₁ p t columns h h₁ _ hname hleads hcolumns
  simp only
  cases ha : addition t with
  | error e => exact fun _ _ _ => trivial
  | ok a =>
    simp only [ofExcept_ok_bind]
    subst hcolumns
    have hload : (loadHistory p.address).reading? b₁.memory.objects = some (.ok h) := by
      rw [hleads.address]
      exact reading?_loadHistory hleads.uses.stored
    refine guarded_bind (unmoved_mapError ?_)
    rw [hname, hkey p hname]
    refine unmoved_commit hno hleads.distinct (a.hasColumns_payload t) (isEncoded_payload t a) hload
      hleads.chunks fun b₂ kept' c _ _ hnew => ?_
    exact guarded_repoint hnew fun q hq => hrespond ⟨t, c, q⟩ a ha hq

/-- Querying a table is guarded. -/
theorem guarded_querying {answer : Table → Except DatabaseError Query.Answer}
    {respond : Table × Query.Answer → Except DatabaseError Response} :
    IsGuarded contents kept (querying name answer >>= fun x => .ofExcept (respond x)) b := by
  simp only [querying, bind_assoc]
  refine guarded_bind (unmoved_loadTable (fun _ _ _ _ => fun _ _ _ => trivial) ?_)
  intro b₁ p t columns h _ _ _ _ _
  simp only
  cases answer t <;> exact fun _ _ _ => trivial

/-- Looking a registration up is guarded. -/
theorem guarded_pointer :
    IsGuarded contents kept (do return .pointer (← pointer name)) b := by
  simp only [pointer, bind_assoc]
  refine guarded_lookup fun b₁ _ _ => ?_
  cases b₁.memory.registry.pointer? name <;> exact fun _ _ _ => trivial

/-- Listing the tables is guarded. -/
theorem guarded_tables : IsGuarded contents kept (do return .pointers (← tables)) b := by
  intro c _ hvalid _
  rw [if_neg (by simp [Request.commits])]
  exact ⟨trivial, hvalid, fun _ _ _ => trivial⟩

/-- The procedure of every effect is guarded, if a new table is a sound one. -/
theorem Implements.guarded {p : Procedure DatabaseError Response} {e : Effect} (h : Implements p e)
    (hno : NoCollision contents) (hsound : ∀ c, e.change? = some c → c.IsSound) (b : Basis) :
    IsGuarded contents kept p b := by
  cases h with
  | fail e => exact fun _ _ _ => trivial
  | create hrespond =>
    refine guarded_creating hno (fun t ht => ?_) fun x hx => ?_
    · exact firstRepeated?_eq_none_iff.1 ((hsound _ rfl) t ht).2.distinct
    · obtain ⟨r, hr, -⟩ := hrespond x hx
      exact ⟨r, hr⟩
  | alter hkey hrespond =>
    refine guarded_altering hno hkey fun x a ha hx => ?_
    obtain ⟨r, hr, -⟩ := hrespond x a ha hx
    exact ⟨r, hr⟩
  | query _ => exact guarded_querying
  | pointer name => exact guarded_pointer
  | list => exact guarded_tables

/-- The procedure of every operation is guarded. -/
theorem guarded_operation (op : Operation) (hno : NoCollision contents) (b : Basis) :
    IsGuarded contents [] op.procedure b := by
  refine (implements_effect op).guarded hno (fun c hc => ?_) b
  obtain ⟨seen, he⟩ := Effect.change?_eq_some_iff.1 hc
  exact isSound_effect he

end Database

end ProvenTables
