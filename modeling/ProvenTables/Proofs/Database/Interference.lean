import ProvenTables.Proofs.Database.Reference
import ProvenTables.Proofs.Storage.Addressing

/-!
# Procedures under interference

What a procedure does while other clients work on the same database. A world is a memory with the
changes that have been made so far; it is valid if its memory holds what the changes make of an empty
database. `Safe` says of a procedure that each of its requests keeps the world valid, whatever valid
worlds the others lead to between two requests.
-/

namespace ProvenTables

namespace Request

/-- Whether a request has registered or moved a table. -/
def commits : (r : Request) → r.Answer → Bool
  | create _ _, .ok _ => true
  | repoint _ _ _, .ok _ => true
  | _, _ => false

end Request

/-- A request that has moved nothing leaves the registry alone. -/
lemma Memory.registry_answer {r : Request} {m : Memory}
    (h : ¬r.commits (Memory.answer r m).1 = true) : (Memory.answer r m).2.registry = m.registry := by
  cases r with
  | create table a =>
    simp only [Memory.answer] at h ⊢
    cases hc : m.registry.create table a with
    | ok x => exact absurd rfl (hc ▸ h)
    | error e => rfl
  | repoint table expected new =>
    simp only [Memory.answer] at h ⊢
    cases hc : m.registry.repoint table expected new with
    | ok x => exact absurd rfl (hc ▸ h)
    | error e => rfl
  | _ => rfl

/-! ## Registrations -/

/-- A registry in which a table is registered with a pointer, and the others are as they were. -/
def Registry.Moves (r r' : Registry) (p : Pointer) : Prop :=
  ∀ name, r'.pointer? name = if p.table = name then some p else r.pointer? name

/-- A table that is not registered is registered at the address. -/
lemma Memory.answer_create {m : Memory} {name : String} (a : Address)
    (h : ¬m.registry.pointers.contains name = true) :
    ∃ p r, Memory.answer (.create name a) m = (.ok p, { m with registry := r }) ∧
      p.table = name ∧ p.address = a ∧ m.registry.Moves r p := by
  obtain ⟨p, hp⟩ : ∃ p : Pointer, p = ⟨m.registry.nextId, name, a⟩ := ⟨_, rfl⟩
  refine ⟨p, ⟨p.id, m.registry.pointers.insert name p⟩, ?_, hp ▸ rfl, hp ▸ rfl, fun n => ?_⟩
  · simp only [Memory.answer, Registry.create, if_neg h, Registry.change, hp]
  · rw [Registry.pointer?, SortedMap.get?_insert, hp]
    rfl

/-- A name that is there is not registered again. -/
lemma Memory.answer_create_of_contains {m : Memory} {name : String} (a : Address)
    (h : m.registry.pointers.contains name = true) :
    Memory.answer (.create name a) m = (.error (.tableExists name), m) := by
  simp only [Memory.answer, Registry.create, if_pos h, Registry.change]

/-- A table at the expected address is moved. -/
lemma Memory.answer_repoint {m : Memory} {name : String} {p : Pointer} {expected : Address}
    (a : Address) (h : m.registry.pointer? name = some p) (hname : p.table = name)
    (hexpected : p.address = expected) :
    ∃ q r, Memory.answer (.repoint name expected a) m = (.ok q, { m with registry := r }) ∧
      q.table = name ∧ q.address = a ∧ m.registry.Moves r q := by
  subst hexpected
  obtain ⟨q, hq⟩ : ∃ q : Pointer, q = { p with address := a } := ⟨_, rfl⟩
  refine ⟨q, { m.registry with pointers := m.registry.pointers.insert name q }, ?_,
    hq ▸ hname, hq ▸ rfl, fun n => ?_⟩
  · simp only [Memory.answer, Registry.repoint, h, ne_eq, not_true_eq_false, ↓reduceIte,
      Registry.change, hq]
  · rw [Registry.pointer?, SortedMap.get?_insert, hq, hname]
    rfl

/-- A table that is not registered is not moved. -/
lemma Memory.answer_repoint_of_none {m : Memory} {name : String} (expected a : Address)
    (h : m.registry.pointer? name = none) :
    Memory.answer (.repoint name expected a) m = (.error (.unknownTable name), m) := by
  simp only [Memory.answer, Registry.repoint, h, Registry.change]

/-- A table that is at another address than expected is not moved. -/
lemma Memory.answer_repoint_of_ne {m : Memory} {name : String} {p : Pointer} {expected : Address}
    (a : Address) (h : m.registry.pointer? name = some p) (hmoved : p.address ≠ expected) :
    Memory.answer (.repoint name expected a) m = (.error (.conflict name expected p.address), m) := by
  simp only [Memory.answer, Registry.repoint, h, ne_eq, hmoved, not_false_eq_true, ↓reduceIte,
    Registry.change]

namespace Database

open Storage
open Procedure (reading? reading?_bind_ok reading?_bind_eq_ok_iff reading?_grows)

/-- A memory and the changes that have led to it. -/
structure World where
  memory : Memory
  applied : List Change

/-- The tables as they are stored after changes. -/
abbrev storedAfter (cs : List Change) : SortedMap (Except StorageError Table) :=
  Keeping.stored.after cs

/-- The registration of a name leads to what is stored, if anything is. -/
def Registers (m : Memory) (name : String) : Option (Except StorageError Table) → Prop
  | none => m.registry.pointer? name = none
  | some t => ∃ p, m.registry.pointer? name = some p ∧ p.table = name ∧
      (replay name p.address).reading? m.objects = some t

/-- A table is registered as it was when objects are added. -/
lemma Registers.grows {m m' : Memory} {name : String} {t : Option (Except StorageError Table)}
    (h : Registers m name t) (hr : m.registry.pointer? name = m'.registry.pointer? name)
    (ho : m.objects.Grows m'.objects) : Registers m' name t := by
  cases t with
  | none => exact hr.symm.trans h
  | some t =>
    obtain ⟨p, hp, hname, hreplay⟩ := h
    exact ⟨p, hr.symm.trans hp, hname, reading?_grows ho hreplay⟩

namespace World

/-- The objects are under their addresses, and the tables are those after the changes. -/
structure IsValid (contents : List String) (w : World) : Prop where
  addressed : ∀ k c, w.memory.objects.get? k = some c →
    c ∈ contents ∧ k = (Address.ofText c).text
  registers : ∀ name, Registers w.memory name ((storedAfter w.applied).get? name)

/-- What the others may do: add objects, and make changes. -/
structure Le (w w' : World) : Prop where
  objects : w.memory.objects.Grows w'.memory.objects
  applied : w.applied <+: w'.applied
  registry : w.applied = w'.applied → w.memory.registry = w'.memory.registry

variable {w w' w'' : World} {contents : List String}

/-- A name is neither registered nor stored, or its registration leads to what is stored. -/
lemma IsValid.registered (h : w.IsValid contents) (name : String) :
    ((storedAfter w.applied).get? name = none ∧ w.memory.registry.pointer? name = none) ∨
      ∃ o p, (storedAfter w.applied).get? name = some o ∧ w.memory.registry.pointer? name = some p ∧
        p.table = name ∧ (replay name p.address).reading? w.memory.objects = some o := by
  have hreg := h.registers name
  cases hget : (storedAfter w.applied).get? name with
  | none =>
    rw [hget] at hreg
    exact .inl ⟨rfl, hreg⟩
  | some o =>
    rw [hget] at hreg
    obtain ⟨p, hp, hname, hreplay⟩ := hreg
    exact .inr ⟨o, p, rfl, hp, hname, hreplay⟩

/-- A world has come as far as itself. -/
lemma Le.refl (w : World) : w.Le w := ⟨.refl _, List.prefix_refl _, fun _ => rfl⟩

/-- Worlds that come after one another come after the first one. -/
lemma Le.trans (h : w.Le w') (h' : w'.Le w'') : w.Le w'' where
  objects := h.objects.trans h'.objects
  applied := h.applied.trans h'.applied
  registry := by
    intro heq
    have hmid : w.applied = w'.applied :=
      h.applied.eq_of_length_le (heq ▸ h'.applied.length_le)
    exact (h.registry hmid).trans (h'.registry (hmid ▸ heq))

/-- The world with one more object. -/
def keep (w : World) (a : Address) (c : String) : World :=
  { w with memory.objects := w.memory.objects.keep a c }

/-- Keeping a content leads the world further. -/
lemma le_keep (w : World) (a : Address) (c : String) : w.Le (w.keep a c) :=
  ⟨w.memory.objects.grows_keep a c, List.prefix_refl _, fun _ => rfl⟩

/-- Keeping a content under its address leaves the world valid. -/
lemma isValid_keep (h : w.IsValid contents) {c : String} (hc : c ∈ contents) :
    (w.keep (Address.ofText c) c).IsValid contents where
  addressed := Objects.isAddressed_keep h.addressed hc
  registers name := (h.registers name).grows rfl (w.le_keep _ c).objects

/-- A content that is kept is under its address. -/
lemma get?_keep (h : w.IsValid contents) (hno : NoCollision contents) {c : String}
    (hc : c ∈ contents) : (w.keep (Address.ofText c) c).memory.objects.get? (Address.ofText c).text =
      some c :=
  Objects.get?_keep_of_isAddressed h.addressed hno hc

end World

/-! ## Safe procedures -/

section Safe

variable {ε ε' α β : Type} {contents : List String}
  {committed : List Change → Memory → Except ε α → Prop} {post : World → Except ε α → Prop}

/-- Each request is made in a valid world and leads to one, and the outcome satisfies `post` in every
valid world from then on. A request that registers or moves a table is the last one; the changes
before it, the memory after it and the outcome satisfy `committed`. -/
def Safe (contents : List String) (committed : List Change → Memory → Except ε α → Prop)
    (post : World → Except ε α → Prop) : Procedure ε α → World → Prop
  | .done o, w => ∀ w', w.Le w' → w'.IsValid contents → post w' o
  | .step r next, w => ∀ w', w.Le w' → w'.IsValid contents → (∀ c ∈ r.contents, c ∈ contents) →
    if r.commits (Memory.answer r w'.memory).1 = true then
      ∃ o, next (Memory.answer r w'.memory).1 = .done o ∧
        committed w'.applied (Memory.answer r w'.memory).2 o
    else
      World.IsValid contents ⟨(Memory.answer r w'.memory).2, w'.applied⟩ ∧
        Safe contents committed post (next (Memory.answer r w'.memory).1)
          ⟨(Memory.answer r w'.memory).2, w'.applied⟩

/-- What follows a commit in a procedure that makes none. -/
def never : List Change → Memory → Except ε α → Prop := fun _ _ _ => False

/-- A procedure that is safe in a world is safe in every later one. -/
lemma Safe.mono {p : Procedure ε α} {w w' : World} (h : Safe contents committed post p w)
    (hle : w.Le w') : Safe contents committed post p w' := by
  cases p with
  | done o => exact fun v hv => h v (hle.trans hv)
  | step r next => exact fun v hv => h v (hle.trans hv)

/-- A procedure is safe if it is in every later valid world. -/
lemma safe_of_forall {p : Procedure ε α} {w : World}
    (h : ∀ w', w.Le w' → w'.IsValid contents → Safe contents committed post p w') :
    Safe contents committed post p w := by
  cases p with
  | done o => exact fun v hv hvalid => h v hv hvalid v (.refl v) hvalid
  | step r next => exact fun v hv hvalid => h v hv hvalid v (.refl v) hvalid

/-- A procedure that makes no change, and what comes after it. -/
lemma safe_bind {p : Procedure ε β} {f : β → Procedure ε α} {w : World}
    (h : Safe contents never (fun w o => Safe contents committed post
      (match o with
        | .ok b => f b
        | .error e => .done (.error e)) w) p w) :
    Safe contents committed post (p >>= f) w := by
  change Safe contents committed post (p.bind f) w
  induction p generalizing w with
  | done o =>
    cases o with
    | ok b => exact safe_of_forall h
    | error e => exact safe_of_forall h
  | step r next ih =>
    intro v hv hvalid hcontents
    have hstep := h v hv hvalid hcontents
    split at hstep
    · obtain ⟨o, -, hnever⟩ := hstep
      exact hnever.elim
    · rename_i hquiet
      rw [if_neg hquiet]
      exact ⟨hstep.1, ih _ hstep.2⟩

/-- A function on the errors keeps a procedure safe. -/
lemma safe_mapError {g : ε → ε'} {p : Procedure ε α} {w : World}
    {post : World → Except ε' α → Prop}
    (h : Safe contents never (fun w o => post w (o.mapError g)) p w) :
    Safe contents never post (p.mapError g) w := by
  change Safe contents never post (p.mapOutcome (Except.mapError g)) w
  induction p generalizing w with
  | done o => exact h
  | step r next ih =>
    intro v hv hvalid hcontents
    have hstep := h v hv hvalid hcontents
    split at hstep
    · obtain ⟨o, -, hnever⟩ := hstep
      exact hnever.elim
    · rename_i hquiet
      rw [if_neg hquiet]
      exact ⟨hstep.1, ih _ hstep.2⟩

/-- A procedure that reads objects that are there has its outcome in every later world. -/
lemma safe_of_reading? {p : Procedure ε α} {o : Except ε α} {w : World}
    (hp : p.reading? w.memory.objects = some o)
    (h : ∀ w', w.Le w' → w'.IsValid contents → post w' o) :
    Safe contents committed post p w := by
  induction p generalizing w with
  | done out =>
    cases hp
    exact h
  | step r next ih =>
    -- only requests for objects are answered without the registry
    cases r with
    | fetch a =>
      intro v hv hvalid _
      simp only [reading?] at hp
      cases hc : w.memory.objects.get? a.text with
      | none => rw [hc] at hp; cases hp
      | some c =>
        rw [hc] at hp
        have hfetch : v.memory.objects.fetch a = .ok c := by
          rw [Objects.fetch, hv.objects _ _ hc]
        rw [if_neg (by simp [Request.commits])]
        refine ⟨hvalid, ?_⟩
        simp only [Memory.answer, hfetch]
        refine ih _ (reading?_grows hv.objects hp) fun u hu => h u (hv.trans hu)
    | _ => cases hp

/-- Looking a table up goes on with its registration in some later world. -/
lemma safe_lookup {name : String} {f : Option Pointer → Procedure DatabaseError α} {w : World}
    {committed : List Change → Memory → Except DatabaseError α → Prop}
    {post : World → Except DatabaseError α → Prop}
    (h : ∀ w', w.Le w' → w'.IsValid contents →
      Safe contents committed post (f (w'.memory.registry.pointer? name)) w') :
    Safe contents committed post (request (.lookup name) >>= f) w := by
  intro v hv hvalid _
  rw [if_neg (by simp [Request.commits])]
  exact ⟨hvalid, h v hv hvalid⟩

/-- Listing the tables goes on with the registrations of some later world. -/
lemma safe_list {f : List Pointer → Procedure DatabaseError α} {w : World}
    {committed : List Change → Memory → Except DatabaseError α → Prop}
    {post : World → Except DatabaseError α → Prop}
    (h : ∀ w', w.Le w' → w'.IsValid contents →
      Safe contents committed post (f w'.memory.registry.list) w') :
    Safe contents committed post (request .list >>= f) w := by
  intro v hv hvalid _
  rw [if_neg (by simp [Request.commits])]
  exact ⟨hvalid, h v hv hvalid⟩

/-- A value that is put is stored from then on. -/
lemma safe_put {v : Json} {w : World} {post : World → Except StorageError Address → Prop}
    (hno : NoCollision contents)
    (h : ∀ w', w.Le w' → w'.IsValid contents → Stored w'.memory.objects v →
      post w' (.ok (Address.ofJson v))) :
    Safe contents never post (put v) w := by
  intro u hu hvalid hcontents
  have hc : v.canonical ∈ contents := hcontents _ List.mem_cons_self
  rw [if_neg (by simp [Request.commits])]
  refine ⟨World.isValid_keep hvalid hc, fun x hx hxvalid => ?_⟩
  have hstored : Stored (u.keep (Address.ofJson v) v.canonical).memory.objects v :=
    World.get?_keep hvalid hno hc
  exact h x (hu.trans ((u.le_keep _ _).trans hx)) hxvalid (hstored.grows hx.objects)

end Safe

end Database

end ProvenTables
