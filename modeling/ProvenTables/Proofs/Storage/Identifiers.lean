import Mathlib
import ProvenTables.Proofs.Storage.Files

/-!
# Identifiers of tables

A registry in a file gives a new table the number after the greater of its counter and of the number of
its tables, both of which it has from the file. How long the identifiers are new depends on the file
alone: until they come to the identifier of a table of the file, or to the last number of 64 bits
(`assignsNew_iff_of_read`).
-/

namespace ProvenTables

/-! ## Calls -/

/-- What is asked of a registry in a file. A call does not work if the file cannot be written or
read. -/
inductive RegistryCall where
  | create (table : String) (address : Address) (works : Bool)
  | repoint (table : String) (expected new : Address) (works : Bool)
  | reopen (works : Bool)

namespace Registry

/-- The number that the next identifier follows. -/
def counted (r : Registry) : UInt64 := max r.lastId (UInt64.ofNat r.pointers.size)

/-- The numbers of all registrations. -/
def ids (r : Registry) : List UInt64 := r.list.map (·.id)

end Registry

/-- The outcome of something for which a file is written or read, if that works. -/
def filed {α : Type} (works : Bool) (outcome : Except StorageError α) : Except StorageError α :=
  if works then outcome else outcome >>= fun _ => .error .io

namespace Directory

/-- The registration that a call makes, if it makes one. -/
def registered? (d : Directory) : RegistryCall → Option Pointer
  | .create table a works => (d.change (filed works (d.registry.create table a))).1.toOption
  | _ => none

/-- The directory after a call. One that cannot be opened is as it was when it is opened next. -/
def call (d : Directory) : RegistryCall → Directory
  | .create table a works => (d.change (filed works (d.registry.create table a))).2
  | .repoint table expected new works =>
    (d.change (filed works (d.registry.repoint table expected new))).2
  | .reopen works =>
    match filed works (mount d.disk d.retry) with
    | .ok d' => d'
    | .error _ => d

/-- The directory after calls that are made one after the other. -/
def callAll (d : Directory) (calls : List RegistryCall) : Directory := calls.foldl call d

/-- The registrations that calls make, in their order. -/
def registrations (d : Directory) : List RegistryCall → List Pointer
  | [] => []
  | c :: cs => (d.registered? c).toList ++ (d.call c).registrations cs

/-- Whenever a call makes a registration, the number that its identifier should be has 64 bits, and no
table has the identifier. -/
def AssignsNew (d : Directory) : List RegistryCall → Prop
  | [] => True
  | c :: cs =>
    (∀ p, d.registered? c = some p →
      d.registry.counted.toNat + 1 < 2 ^ 64 ∧ p.id ∉ d.registry.ids) ∧ (d.call c).AssignsNew cs

end Directory

/-! ## Registries -/

namespace Registry

variable {r r' : Registry} {p : Pointer} {name : String} {a : Address} {id : UInt64}

/-- A number is in use if a registration has it. -/
lemma mem_ids_iff : id ∈ r.ids ↔ ∃ name p, r.pointer? name = some p ∧ p.id = id := by
  simp only [ids, list, SortedMap.values, List.map_map, List.mem_map, Prod.exists,
    SortedMap.mem_entries_iff, Function.comp_apply, pointer?]

/-- The counter is the greater of the last number and the number of registrations. -/
lemma toNat_counted (r : Registry) :
    r.counted.toNat = max r.lastId.toNat (r.pointers.size % 2 ^ 64) := by
  rw [counted, UInt64.toNat_max, UInt64.toNat_ofNat']

/-- A registration is created if and only if the name is free, with the number after the counter. -/
lemma create_eq_ok_iff : r.create name a = .ok (p, r') ↔
    r.pointer? name = none ∧ p = ⟨r.counted + 1, name, a⟩ ∧
      r' = ⟨p.id, r.pointers.insert name p⟩ := by
  have hnext : r.nextId = r.counted + 1 := rfl
  rw [create, SortedMap.contains, pointer?, hnext]
  cases r.pointers.get? name with
  | some q => simp
  | none =>
    simp only [Option.isSome_none, Bool.false_eq_true, ↓reduceIte, Except.ok.injEq, Prod.mk.injEq,
      true_and]
    constructor
    · rintro ⟨rfl, rfl⟩
      exact ⟨rfl, rfl⟩
    · rintro ⟨rfl, rfl⟩
      exact ⟨rfl, rfl⟩

/-- A registration that is moved keeps its number. -/
lemma exists_of_repoint {expected new : Address} (h : r.repoint name expected new = .ok (p, r')) :
    ∃ q, r.pointer? name = some q ∧ p.id = q.id ∧
      r' = { r with pointers := r.pointers.insert name p } := by
  rw [repoint] at h
  split at h
  · cases h
  · rename_i q hq
    split at h
    · cases h
    · cases h
      exact ⟨q, hq, rfl, rfl⟩

/-- The registries have the same tables under the same identifiers, and the same one comes next. -/
structure SameIds (r r' : Registry) : Prop where
  counted : r.counted = r'.counted
  id : ∀ name, (r.pointer? name).map Pointer.id = (r'.pointer? name).map Pointer.id

/-- A registry has the same numbers as itself. -/
lemma SameIds.refl (r : Registry) : r.SameIds r := ⟨rfl, fun _ => rfl⟩

/-- Registries with the same numbers have the same ones in use. -/
lemma SameIds.mem_ids_iff (h : r.SameIds r') : id ∈ r.ids ↔ id ∈ r'.ids := by
  have hmap : ∀ r : Registry, id ∈ r.ids ↔ ∃ name, (r.pointer? name).map Pointer.id = some id := by
    intro r
    simp only [Registry.mem_ids_iff, Option.map_eq_some_iff]
  simp only [hmap, h.id]

/-- A table that is moved keeps its identifier. -/
lemma sameIds_of_repoint {expected new : Address}
    (h : r.repoint name expected new = .ok (p, r')) : r.SameIds r' := by
  obtain ⟨q, hq, hid, rfl⟩ := exists_of_repoint h
  constructor
  · have hcontains : r.pointers.contains name = true := Option.isSome_iff_exists.2 ⟨q, hq⟩
    simp only [Registry.counted, SortedMap.size_insert, hcontains, ↓reduceIte, Nat.add_zero]
  · intro other
    simp only [pointer?, SortedMap.get?_insert]
    split
    · rename_i hname
      subst hname
      rw [pointer?] at hq
      rw [hq, Option.map_some, Option.map_some, hid]
    · rfl

/-- A registration adds its identifier. -/
lemma mem_ids_of_create (h : r.create name a = .ok (p, r')) : id ∈ r'.ids ↔ id = p.id ∨ id ∈ r.ids := by
  obtain ⟨hnew, -, rfl⟩ := create_eq_ok_iff.1 h
  simp only [mem_ids_iff, pointer?, SortedMap.get?_insert] at hnew ⊢
  constructor
  · rintro ⟨other, q, hq, rfl⟩
    split at hq
    · cases hq
      exact .inl rfl
    · exact .inr ⟨other, q, hq, rfl⟩
  · rintro (rfl | ⟨other, q, hq, rfl⟩)
    · exact ⟨name, p, if_pos rfl, rfl⟩
    · have hne : name ≠ other := by
        rintro rfl
        rw [hnew] at hq
        cases hq
      exact ⟨other, q, (if_neg hne).trans hq, rfl⟩

/-- The identifier of a registration is the one that is counted after it. -/
lemma toNat_counted_of_create (h : r.create name a = .ok (p, r')) (hfits : r.counted.toNat + 1 < 2 ^ 64) :
    p.id.toNat = r.counted.toNat + 1 ∧ r'.counted.toNat = r.counted.toNat + 1 := by
  obtain ⟨hnew, rfl, rfl⟩ := create_eq_ok_iff.1 h
  have hid : (r.counted + 1).toNat = r.counted.toNat + 1 := by
    rw [UInt64.toNat_add, UInt64.toNat_one, Nat.mod_eq_of_lt hfits]
  have hcontains : r.pointers.contains name = false := by
    rw [pointer?, ← Option.isNone_iff_eq_none] at hnew
    exact Option.isSome_eq_false_iff.2 hnew
  have hsize := toNat_counted r
  refine ⟨hid, ?_⟩
  rw [toNat_counted]
  simp only [hid, SortedMap.size_insert, hcontains, Bool.false_eq_true, ↓reduceIte]
  omega

end Registry

/-! ## Directories -/

/-- A change that is filed succeeds if the file can be written and the change succeeds. -/
lemma filed_eq_ok_iff {α : Type} {works : Bool} {outcome : Except StorageError α} {x : α} :
    filed works outcome = .ok x ↔ works = true ∧ outcome = .ok x := by
  cases works <;> cases outcome <;> simp [filed, bind, Except.bind]

namespace Directory

variable {d : Directory}

/-- The file is what the registry is written as, or reads as the registry. -/
def IsFiled (d : Directory) : Prop := d.disk.openRegistry = .ok d.registry

/-- A change leaves the registry in its file. -/
lemma isFiled_change (h : d.IsFiled) (outcome : Except StorageError (Pointer × Registry)) :
    (d.change outcome).2.IsFiled := by
  cases outcome with
  | ok x => exact Registry.read_render x.2
  | error e => exact h

/-- A directory that is opened again has the registry that it had. -/
lemma mount_of_isFiled (h : d.IsFiled) : mount d.disk d.retry = .ok d := by
  rw [mount, show d.disk.openRegistry = .ok d.registry from h]
  rfl

/-- A directory whose registry is in its file is the same when it is opened again. -/
lemma call_reopen (h : d.IsFiled) (works : Bool) : d.call (.reopen works) = d := by
  rw [call, mount_of_isFiled h]
  cases works <;> rfl

/-- A call makes a registration, or it leaves every table its identifier and adds none. -/
lemma call_cases (h : d.IsFiled) (c : RegistryCall) :
    (d.registered? c = none ∧ d.registry.SameIds (d.call c).registry) ∨
      ∃ name a p, d.registered? c = some p ∧
        d.registry.create name a = .ok (p, (d.call c).registry) := by
  cases c with
  | create name a works =>
    simp only [registered?, call]
    cases hfiled : filed works (d.registry.create name a) with
    | error e => exact .inl ⟨rfl, .refl _⟩
    | ok x =>
      obtain ⟨-, hcreate⟩ := filed_eq_ok_iff.1 hfiled
      exact .inr ⟨name, a, x.1, rfl, hcreate⟩
  | repoint name expected new works =>
    refine .inl ⟨rfl, ?_⟩
    simp only [call]
    cases hfiled : filed works (d.registry.repoint name expected new) with
    | error e => exact .refl _
    | ok x =>
      obtain ⟨-, hrepoint⟩ := filed_eq_ok_iff.1 hfiled
      exact Registry.sameIds_of_repoint hrepoint
  | reopen works =>
    refine .inl ⟨rfl, ?_⟩
    rw [call_reopen h]
    exact .refl _

/-- A call leaves the registry in its file. -/
lemma isFiled_call (h : d.IsFiled) (c : RegistryCall) : (d.call c).IsFiled := by
  cases c with
  | create name a works => exact isFiled_change h _
  | repoint name expected new works => exact isFiled_change h _
  | reopen works => rwa [call_reopen h]

/-- Later calls are made after those before them. -/
lemma callAll_append (d : Directory) (before later : List RegistryCall) :
    d.callAll (before ++ later) = (d.callAll before).callAll later :=
  List.foldl_append

/-- Calls leave the registry in its file. -/
lemma isFiled_callAll (h : d.IsFiled) (calls : List RegistryCall) : (d.callAll calls).IsFiled := by
  induction calls generalizing d with
  | nil => exact h
  | cons c cs ih => exact ih (isFiled_call h c)

/-! ## Identifiers -/

/-- A call leaves every table its identifier. -/
lemma id_call (h : d.IsFiled) (c : RegistryCall) {name : String} {p : Pointer}
    (hp : d.registry.pointer? name = some p) :
    ∃ q, (d.call c).registry.pointer? name = some q ∧ q.id = p.id := by
  rcases call_cases h c with ⟨-, hsame⟩ | ⟨new, a, q, -, hcreate⟩
  · have hid := hsame.id name
    rw [hp, Option.map_some] at hid
    exact Option.map_eq_some_iff.1 hid.symm
  · obtain ⟨hnew, -, hregistry⟩ := Registry.create_eq_ok_iff.1 hcreate
    have hne : new ≠ name := by
      rintro rfl
      rw [hnew] at hp
      cases hp
    refine ⟨p, ?_, rfl⟩
    rw [hregistry, Registry.pointer?, SortedMap.get?_insert, if_neg hne]
    exact hp

/-- No call changes the number of a registration. -/
lemma id_callAll (h : d.IsFiled) (calls : List RegistryCall) {name : String} {p : Pointer}
    (hp : d.registry.pointer? name = some p) :
    ∃ q, (d.callAll calls).registry.pointer? name = some q ∧ q.id = p.id := by
  induction calls generalizing d p with
  | nil => exact ⟨p, hp, rfl⟩
  | cons c cs ih =>
    obtain ⟨q, hq, hid⟩ := id_call h c hp
    obtain ⟨q', hq', hid'⟩ := ih (isFiled_call h c) hq
    exact ⟨q', hq', hid'.trans hid⟩

/-- The identifiers of registrations are new until they come to one that a table has, or to the end. -/
lemma assignsNew_iff (h : d.IsFiled) (calls : List RegistryCall) :
    d.AssignsNew calls ↔
      d.registry.counted.toNat + (d.registrations calls).length < 2 ^ 64 ∧
        ∀ id ∈ d.registry.ids, ¬(d.registry.counted.toNat < id.toNat ∧
          id.toNat ≤ d.registry.counted.toNat + (d.registrations calls).length) := by
  induction calls generalizing d with
  | nil =>
    have hlt := d.registry.counted.toNat_lt
    simp only [AssignsNew, registrations, List.length_nil, Nat.add_zero, true_iff]
    exact ⟨hlt, fun id _ hid => absurd hid.1 (Nat.not_lt.2 hid.2)⟩
  | cons c cs ih =>
    rw [AssignsNew, registrations, ih (isFiled_call h c)]
    rcases call_cases h c with ⟨hnone, hsame⟩ | ⟨name, a, p, hsome, hcreate⟩
    · simp only [hnone, reduceCtorEq, false_imp_iff, implies_true, true_and, Option.toList_none,
        List.nil_append, ← hsame.counted, ← hsame.mem_ids_iff]
    · simp only [hsome, Option.some.injEq, forall_eq', Option.toList_some, List.singleton_append,
        List.length_cons, Registry.mem_ids_of_create hcreate, forall_eq_or_imp]
      constructor
      · rintro ⟨⟨hfits, hnew⟩, hlt, -, hids⟩
        obtain ⟨hid, hcounted⟩ := Registry.toNat_counted_of_create hcreate hfits
        refine ⟨by omega, fun id hmem hbetween => hids id hmem ?_⟩
        have hne : id.toNat ≠ p.id.toNat := fun heq => hnew (UInt64.toNat_inj.1 heq ▸ hmem)
        omega
      · rintro ⟨hlt, hids⟩
        have hfits : d.registry.counted.toNat + 1 < 2 ^ 64 := by omega
        obtain ⟨hid, hcounted⟩ := Registry.toNat_counted_of_create hcreate hfits
        refine ⟨⟨hfits, fun hmem => hids _ hmem (by omega)⟩, by omega, by omega, ?_⟩
        exact fun id hmem hbetween => hids id hmem (by omega)

/-- The identifiers of registrations follow each other. -/
lemma map_id_registrations (h : d.IsFiled) (calls : List RegistryCall)
    (hfits : d.registry.counted.toNat + (d.registrations calls).length < 2 ^ 64) :
    (d.registrations calls).map (·.id.toNat) =
      List.range' (d.registry.counted.toNat + 1) (d.registrations calls).length := by
  induction calls generalizing d with
  | nil => rfl
  | cons c cs ih =>
    rw [registrations] at hfits ⊢
    rcases call_cases h c with ⟨hnone, hsame⟩ | ⟨name, a, p, hsome, hcreate⟩
    · rw [hnone, hsame.counted] at hfits ⊢
      exact ih (isFiled_call h c) hfits
    · simp only [hsome, Option.toList_some, List.singleton_append, List.length_cons] at hfits ⊢
      obtain ⟨hid, hcounted⟩ := Registry.toNat_counted_of_create hcreate (by omega)
      rw [List.map_cons, ih (isFiled_call h c) (by omega), hid, hcounted]
      rfl

/-- From whatever text the registry is read, and whatever is asked of it then, also of a file that
cannot be written or read at times: the registrations have identifiers that no table has, and no number
is too great for 64 bits, if and only if none of the numbers that follow the counted one, as many as
there are registrations, is the identifier of a table in the text or too great. As long as none is too
great the registrations have these numbers as their identifiers, in turn; and a table that is registered
keeps its identifier. -/
theorem assignsNew_iff_of_read {content : String} {r : Registry} (hread : Registry.read content = .ok r)
    (objects : SortedMap DiskEntry) (retry : RetryPolicy) :
    ∃ d, mount ⟨objects, some content⟩ retry = .ok d ∧ d.registry = r ∧
      ∀ calls : List RegistryCall,
        (d.AssignsNew calls ↔ r.counted.toNat + (d.registrations calls).length < 2 ^ 64 ∧
          ∀ id ∈ r.ids, ¬(r.counted.toNat < id.toNat ∧
            id.toNat ≤ r.counted.toNat + (d.registrations calls).length)) ∧
        (r.counted.toNat + (d.registrations calls).length < 2 ^ 64 →
          (d.registrations calls).map (·.id.toNat) =
            List.range' (r.counted.toNat + 1) (d.registrations calls).length) ∧
        ∀ later name p, (d.callAll calls).registry.pointer? name = some p →
          ∃ q, (d.callAll (calls ++ later)).registry.pointer? name = some q ∧ q.id = p.id := by
  have hfiled : IsFiled ⟨⟨objects, some content⟩, r, retry⟩ := hread
  refine ⟨⟨⟨objects, some content⟩, r, retry⟩, mount_of_isFiled hfiled, rfl, fun calls => ?_⟩
  refine ⟨assignsNew_iff hfiled calls, map_id_registrations hfiled calls, fun later name p hp => ?_⟩
  rw [callAll_append]
  exact id_callAll (isFiled_callAll hfiled calls) later hp

/-! ## A file whose counter is behind -/

/-- The counter is behind the identifier of the table. -/
def behindContent : String :=
  "\x7b\"next_id\":0,\"pointers\":\x7b\"b\":" ++
    "\x7b\"id\":2,\"table_name\":\"b\",\"sequence_cid\":\"x\"\x7d\x7d\x7d"

/-- A registry whose last number is behind its registration. -/
def behind : Registry := ⟨0, .ofList [("b", ⟨2, "b", ⟨"x"⟩⟩)]⟩

/-- That registry is read from its file. -/
lemma read_behindContent : Registry.read behindContent = .ok behind := by cbv

/-- The next table is given the identifier of the one in the file. -/
theorem assignsNew_iff_of_read_behind :
    Registry.read behindContent = .ok behind ∧
      ∃ d, mount ⟨.empty, some behindContent⟩ (.ofMillis 100 5000 8) = .ok d ∧
        ¬d.AssignsNew [.create "a" ⟨"y"⟩ true] ∧
          d.registrations [.create "a" ⟨"y"⟩ true] = [⟨2, "a", ⟨"y"⟩⟩] ∧ 2 ∈ behind.ids := by
  refine ⟨read_behindContent, ?_⟩
  obtain ⟨d, hmount, hregistry, hcalls⟩ :=
    assignsNew_iff_of_read read_behindContent .empty (.ofMillis 100 5000 8)
  have hmem : 2 ∈ behind.ids := by decide
  have hcreate : ∃ r, behind.create "a" ⟨"y"⟩ = .ok (⟨2, "a", ⟨"y"⟩⟩, r) := ⟨_, rfl⟩
  obtain ⟨r, hr⟩ := hcreate
  have hmade : d.registrations [.create "a" ⟨"y"⟩ true] = [⟨2, "a", ⟨"y"⟩⟩] := by
    simp only [registrations, registered?, hregistry, filed, ↓reduceIte, hr, change]
    rfl
  refine ⟨d, hmount, fun hnew => ?_, hmade, hmem⟩
  have hids := ((hcalls _).1.1 hnew).2 2 hmem
  rw [hmade] at hids
  exact hids (by decide)

end Directory

end ProvenTables
