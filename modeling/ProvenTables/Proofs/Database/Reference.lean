import ProvenTables.Proofs.Database.Operation

/-!
# Reference databases

A reference database keeps one value for each table name and changes it in place. `Keeping.plain`
keeps the tables themselves. `Keeping.stored` keeps what loading gives of them, which goes through the
encoding; it agrees with the plain one as long as no timestamp has a signed year (`after_stored`).
-/

namespace ProvenTables.Database

open Storage

/-- How tables are kept. -/
structure Keeping (α : Type) where
  read : α → Except StorageError Table
  create : String → Table → α
  alter : Table → Addition → α

namespace Keeping

variable {α : Type}

/-- Every table is kept as it is. -/
def plain : Keeping Table where
  read t := .ok t
  create _ t := t
  alter t a := a.apply t

/-- Every table is kept as what its encoding decodes to. -/
def stored : Keeping (Except StorageError Table) where
  read t := t
  create name t := ((Payload.ofTable t).toTable name).mapError .data
  alter t a := (extend t (a.payload t)).mapError .data

/-- The table of a name. -/
def find (k : Keeping α) (db : SortedMap α) (name : String) : Except DatabaseError Table :=
  match db.get? name with
  | some a => (k.read a).mapError .storage
  | none => .error (.unknownTable name)

/-- The database after a change, or why the change fails. -/
def change (k : Keeping α) (db : SortedMap α) : Change → Except DatabaseError (SortedMap α)
  | .create name table =>
    if db.contains name then .error (.tableExists name)
    else do return db.insert name (k.create name (← table))
  | .alter name addition => do
    let t ← k.find db name
    return db.insert name (k.alter t (← addition t))

/-- What is seen of an effect, and the database after it. -/
def perform (k : Keeping α) (db : SortedMap α) : Effect → Except DatabaseError (Observation × SortedMap α)
  | .fail e => .error e
  | .change c seen => do return (seen, ← k.change db c)
  | .query name answer => do
    let t ← k.find db name
    return (.answer (← answer t), db)
  | .pointer name => if db.contains name then .ok (.table name, db) else .error (.unknownTable name)
  | .list => .ok (.tables db.keys, db)

/-- What is seen of an effect on a database. -/
def observe (k : Keeping α) (db : SortedMap α) (e : Effect) : Except DatabaseError Observation :=
  (k.perform db e).map Prod.fst

/-- The database after a change, which is the same if the change fails. -/
def apply (k : Keeping α) (db : SortedMap α) (c : Change) : SortedMap α :=
  match k.change db c with
  | .ok db => db
  | .error _ => db

/-- The database after changes of an empty one. -/
def after (k : Keeping α) (cs : List Change) : SortedMap α := cs.foldl k.apply .empty

/-- The last change comes after the others. -/
lemma after_append (k : Keeping α) (cs : List Change) (c : Change) :
    k.after (cs ++ [c]) = k.apply (k.after cs) c := by
  rw [after, List.foldl_append]
  rfl

/-- A change that is possible is applied. -/
lemma apply_of_change {k : Keeping α} {db db' : SortedMap α} {c : Change}
    (h : k.change db c = .ok db') : k.apply db c = db' := by
  rw [apply, h]

/-- A change shows a success if and only if it is possible. -/
lemma observe_change_eq_ok_iff {k : Keeping α} {db : SortedMap α} {c : Change} {seen o : Observation} :
    k.observe db (.change c seen) = .ok o ↔ (∃ db', k.change db c = .ok db') ∧ o = seen := by
  rw [observe, perform]
  cases k.change db c <;> simp [bind, Except.bind, Except.map, pure, Except.pure, eq_comm]

/-- A change binds only its own table. -/
lemma insert_of_change {k : Keeping α} {db db' : SortedMap α} {c : Change}
    (h : k.change db c = .ok db') : ∃ a, db' = db.insert c.table a := by
  cases c with
  | create name table =>
    simp only [change] at h
    split at h
    · cases h
    · obtain ⟨t, -, hdb'⟩ := bind_eq_ok_iff.1 h
      cases hdb'
      exact ⟨_, rfl⟩
  | alter name addition =>
    simp only [change, bind_eq_ok_iff] at h
    obtain ⟨t, -, a, -, hdb'⟩ := h
    cases hdb'
    exact ⟨_, rfl⟩

end Keeping

/-! ## Sound databases -/

/-- Every table has the name it is kept under and is sound. -/
def IsSound (db : SortedMap Table) : Prop := ∀ name t, db.get? name = some t → t.name = name ∧ t.IsSound

/-- No timestamp has a signed year. -/
def IsDated (db : SortedMap Table) : Prop := ∀ name t, db.get? name = some t → t.IsDated

/-- A change makes sound tables of sound tables. -/
def Change.IsSound : Change → Prop
  | create name table => ∀ t, table = .ok t → t.name = name ∧ t.IsSound
  | alter _ addition => ∀ t a, t.IsSound → addition t = .ok a → ∀ r ∈ a.allRows, r.IsSound t.columns

/-- The rows after an addition are those before it and those of the addition. -/
lemma mem_allRows_apply {t : Table} {a : Addition} {r : Row} (h : r ∈ (a.apply t).allRows) :
    r ∈ t.allRows ∨ r ∈ a.allRows := by
  cases a with
  | rows rs =>
    simp only [Table.allRows, Addition.apply, Addition.allRows, List.mem_append] at h ⊢
    tauto
  | index name ix =>
    simp only [Table.allRows, Addition.apply, Addition.allRows, List.mem_append,
      Payload.mem_flatMap_rows_iff] at h ⊢
    rcases h with h | ⟨i, hi, hr⟩
    · exact .inl (.inl h)
    · rcases SortedMap.mem_insertEntry hi with rfl | hi
      · exact .inr hr
      · exact .inl (.inr ⟨i, hi, hr⟩)

/-- The rows of an addition are among those after it. -/
lemma allRows_subset_apply {t : Table} {a : Addition} {r : Row} (h : r ∈ a.allRows) :
    r ∈ (a.apply t).allRows := by
  cases a with
  | rows rs =>
    exact List.mem_append_left _ (List.mem_append_right _ h)
  | index name ix =>
    refine List.mem_append_right _ (Payload.mem_flatMap_rows_iff.2 ⟨(name, ix), ?_, h⟩)
    exact SortedMap.mem_entries_iff.2 (by rw [Addition.apply, SortedMap.get?_insert, if_pos rfl])

/-- The payload of an addition is encoded. -/
lemma isEncoded_payload (t : Table) (a : Addition) : (a.payload t).IsEncoded := by
  cases a with
  | rows rs => exact Payload.isEncoded_ofRows t rs
  | index n ix => exact Payload.isEncoded_ofIndex t n ix

/-- An addition of sound rows is stored if they are dated, and else not. -/
theorem extend_payload {t t' : Table} {a : Addition} (h : ∀ r ∈ a.allRows, r.IsSound t.columns) :
    extend t (a.payload t) = .ok t' ↔ (∀ r ∈ a.allRows, r.IsDated) ∧ t' = a.apply t := by
  cases a with
  | rows rs => exact extend_ofRows h
  | index name ix => exact extend_ofIndex h

/-- A sound table with sound rows added is sound. -/
lemma isSound_apply {t : Table} {a : Addition} (ht : t.IsSound)
    (ha : ∀ r ∈ a.allRows, r.IsSound t.columns) : (a.apply t).IsSound := by
  have hcolumns : (a.apply t).columns = t.columns := by cases a <;> rfl
  constructor
  · rw [Table.columnNames, hcolumns]
    exact ht.distinct
  · intro r hr
    rw [hcolumns]
    exact (mem_allRows_apply hr).elim (ht.rows r) (ha r)

/-! ## Effects of operations -/

/-- A table that is defined is sound and has its name. -/
lemma isSound_newTable {s : Sql.CreateTable} {t : Table} (h : newTable s = .ok t) :
    t.name = s.table ∧ t.IsSound := by
  simp only [newTable, mapError_eq_ok_iff, Table.create] at h
  split at h
  · cases h
  · rename_i hdistinct
    cases h
    exact ⟨rfl, hdistinct, fun r hr => by cases hr⟩

/-- The change that an operation makes is sound. -/
theorem isSound_effect {op : Operation} {c : Change} {seen : Observation}
    (h : op.effect = .change c seen) : c.IsSound := by
  cases op with
  | execute prover sql =>
    simp only [Operation.effect] at h
    split at h
    · rename_i s _
      cases s with
      | createTable s =>
        cases h
        exact fun t ht => isSound_newTable ht
      | createIndex s =>
        cases h
        intro t a ht ha
        obtain ⟨ix, hix, rfl⟩ := map_eq_ok_iff.1 ha
        simp only [newIndex] at hix
        split at hix
        · cases hix
          -- an index is built from rows of the loaded table only
          exact fun r hr => ht.rows r (List.mem_append_left _ (Index.mem_rows_build hr))
        · cases hix
      | insert s =>
        cases h
        intro t a _ ha
        obtain ⟨rows, hrows, rfl⟩ := map_eq_ok_iff.1 ha
        exact isSound_of_newRows hrows
      | select s => cases h
    · cases h
  | createEntity name payload valid =>
    cases h
    exact fun t ht => Payload.isSound_of_toTable valid (mapError_eq_ok_iff.1 ht)
  | appendData name payload valid =>
    cases h
    intro t a _ ha
    obtain ⟨rows, hrows, rfl⟩ := map_eq_ok_iff.1 ha
    -- a payload that the three checks refuse adds no rows
    simp only [appendedRows] at hrows
    split at hrows
    · cases hrows
    · split at hrows
      · cases hrows
      · split at hrows
        · cases hrows
        · exact Payload.isSound_of_decodeRows valid.1 (mapError_eq_ok_iff.1 hrows)
  | pointer name => cases h
  | tables => cases h

/-! ## Storing -/

namespace Keeping

/-- A sound change keeps the database sound. -/
lemma isSound_change {db db' : SortedMap Table} {c : Change} (hdb : IsSound db) (hc : c.IsSound)
    (h : plain.change db c = .ok db') : IsSound db' := by
  cases c with
  | create name table =>
    simp only [change] at h
    split at h
    · cases h
    · obtain ⟨t, ht, hdb'⟩ := bind_eq_ok_iff.1 h
      cases hdb'
      intro n u hu
      -- the new table stands under the given name, and every other one is as before
      rw [SortedMap.get?_insert] at hu
      split at hu
      · rename_i hn
        cases hu
        exact hn ▸ hc t ht
      · exact hdb n u hu
  | alter name addition =>
    simp only [change, bind_eq_ok_iff] at h
    obtain ⟨t, ht, a, ha, hdb'⟩ := h
    cases hdb'
    simp only [find] at ht
    split at ht
    · rename_i u hu
      cases ht
      intro n v hv
      rw [SortedMap.get?_insert] at hv
      split at hv
      · rename_i hn
        cases hv
        obtain ⟨hname, hsound⟩ := hdb name t hu
        refine ⟨?_, isSound_apply hsound (hc t a hsound ha)⟩
        -- no addition renames the table it is made to
        rw [← hn, ← hname]
        cases a <;> rfl
      · exact hdb n v hv
    · cases ht

/-- A sound table without signed years comes back from its payload. -/
lemma stored_create {t : Table} (hsound : t.IsSound) (hdated : t.IsDated) :
    stored.create t.name t = .ok t := by
  simp only [stored]
  rw [(Payload.toTable_ofTable hsound).2 ⟨hdated, rfl⟩]
  rfl

/-- Only what is added goes through the encoding; the table itself has been read before. -/
lemma stored_alter {t : Table} {a : Addition} (ha : ∀ r ∈ a.allRows, r.IsSound t.columns)
    (hdated : (a.apply t).IsDated) : stored.alter t a = .ok (a.apply t) := by
  simp only [stored]
  rw [(extend_payload ha).2 ⟨fun r hr => hdated r (allRows_subset_apply hr), rfl⟩]
  rfl

/-- A change of stored tables is the change of the tables, if it stays without signed years. -/
lemma change_stored {db : SortedMap Table} {c : Change} (hdb : IsSound db) (hc : c.IsSound)
    (hd : ∀ db', plain.change db c = .ok db' → IsDated db') :
    stored.change (db.map .ok) c = (plain.change db c).map (·.map .ok) := by
  cases c with
  | create name table =>
    simp only [change, SortedMap.contains_map] at hd ⊢
    split
    · rfl
    · rename_i hnew
      simp only [hnew] at hd
      cases table with
      | error e => rfl
      | ok t =>
        -- the new table is one of `db'`, so it is dated by `hd`
        have hdated : t.IsDated := hd _ rfl name t (by rw [SortedMap.get?_insert, if_pos rfl]; rfl)
        obtain ⟨rfl, hsound⟩ := hc t rfl
        simp only [bind, Except.bind, stored_create hsound hdated, ← SortedMap.map_insert]
        rfl
  | alter name addition =>
    simp only [change, find, SortedMap.get?_map] at hd ⊢
    cases hget : db.get? name with
    | none => rfl
    | some t =>
      obtain ⟨-, hsound⟩ := hdb name t hget
      rw [hget] at hd
      cases ha : addition t with
      | error e =>
        have hread : stored.read (.ok t) = .ok t := rfl
        simp [plain, hread, ha, bind, Except.bind, Except.mapError, Except.map]
      | ok a =>
        have hplain : plain.alter t a = a.apply t := rfl
        have hdated : (a.apply t).IsDated := hd (db.insert name (a.apply t))
          (by simp [plain, ha, bind, Except.bind, Except.mapError, pure, Except.pure]) name _
          (by rw [SortedMap.get?_insert, if_pos rfl])
        have hstore := stored_alter (hc t a hsound ha) hdated
        simp only [Option.map_some, bind, Except.bind]
        have hread : stored.read (.ok t) = .ok t := rfl
        have hread' : plain.read t = .ok t := rfl
        simp [hread, hread', ha, hstore, hplain, Except.mapError, Except.map, pure, Except.pure,
          SortedMap.map_insert]

/-- Tables that are all stored are found as they are. -/
lemma find_stored (db : SortedMap Table) (name : String) :
    stored.find (db.map .ok) name = plain.find db name := by
  rw [find, find, SortedMap.get?_map]
  cases db.get? name <;> rfl

/-- What is seen of an effect on stored tables is what is seen on the tables, whatever is stored of
a table that is changed. -/
theorem observe_stored (db : SortedMap Table) (e : Effect) :
    stored.observe (db.map .ok) e = plain.observe db e := by
  cases e with
  | fail e => rfl
  | change c seen =>
    cases c with
    | create name table =>
      simp only [observe, perform, change, SortedMap.contains_map]
      split
      · rfl
      · cases table <;> rfl
    | alter name addition =>
      simp only [observe, perform, change, find_stored]
      cases plain.find db name with
      | error e => rfl
      | ok t =>
        simp only [bind, Except.bind]
        cases addition t <;> rfl
  | query name answer =>
    simp only [observe, perform, find_stored]
    cases plain.find db name with
    | error e => rfl
    | ok t =>
      simp only [bind, Except.bind]
      cases answer t <;> rfl
  | pointer name =>
    simp only [observe, perform, SortedMap.contains_map]
    split <;> rfl
  | list =>
    simp only [observe, perform, SortedMap.keys_map]
    rfl

/-- A change of stored tables is the one of plain tables, as long as no year is signed. -/
lemma apply_stored {db : SortedMap Table} {c : Change} (hdb : IsSound db) (hc : c.IsSound)
    (hd : IsDated (plain.apply db c)) :
    stored.apply (db.map .ok) c = (plain.apply db c).map .ok := by
  rw [apply, apply, change_stored hdb hc]
  · cases plain.change db c <;> rfl
  · intro db' hdb'
    rwa [apply_of_change hdb'] at hd

/-- Sound changes lead to a sound database. -/
lemma isSound_after {cs : List Change} (h : ∀ c ∈ cs, c.IsSound) : IsSound (plain.after cs) := by
  induction cs using List.reverseRecOn with
  | nil => exact fun name t ht => by cases ht
  | append_singleton cs c ih =>
    have hcs := ih fun d hd => h d (List.mem_append_left _ hd)
    rw [after_append, apply]
    cases hc : plain.change (plain.after cs) c with
    | error e => exact hcs
    | ok db => exact isSound_change hcs (h c (by simp)) hc

/-- After changes without signed years, what loading gives of every table is the table. -/
theorem after_stored {cs : List Change} (h : ∀ c ∈ cs, c.IsSound)
    (hd : ∀ ds, ds <+: cs → IsDated (plain.after ds)) :
    stored.after cs = (plain.after cs).map .ok := by
  induction cs using List.reverseRecOn with
  | nil => rfl
  | append_singleton cs c ih =>
    have hsound : ∀ c ∈ cs, c.IsSound := fun d hd => h d (List.mem_append_left _ hd)
    have hcs := ih hsound fun ds hds => hd ds (hds.trans (List.prefix_append _ _))
    have hlast := hd _ (List.prefix_refl _)
    rw [after_append] at hlast
    rw [after_append, after_append, hcs, apply_stored (isSound_after hsound) (h c (by simp)) hlast]

end Keeping

end ProvenTables.Database
