import ProvenTables.Proofs.Database.Refinement

/-!
# Readable tables

A change that succeeds leaves a table that loads exactly if no timestamp in it has a signed year. A
single such timestamp makes the whole table unreadable: it is accepted in a literal or in a cell, and
its text is refused when it is read back.
-/

namespace ProvenTables.Database

open Storage

/-- The table that a change makes of the tables that are loaded. -/
def Change.result (load : String → Except DatabaseError Table) : Change → Except DatabaseError Table
  | create _ table => table
  | alter name addition => do
    let t ← load name
    return (← addition t).apply t

/-- Every table that loads is sound and has no signed year. -/
def IsReadBack (db : SortedMap (Except StorageError Table)) : Prop :=
  ∀ name t, db.get? name = some (.ok t) → t.IsSound ∧ t.IsDated

/-- A table with an addition has no signed years if and only if the addition has none. -/
lemma isDated_apply_iff {t : Table} {a : Addition} (ht : t.IsDated) :
    (a.apply t).IsDated ↔ ∀ r ∈ a.allRows, r.IsDated := by
  constructor
  · exact fun h r hr => h r (allRows_subset_apply hr)
  · exact fun h r hr => (mem_allRows_apply hr).elim (ht r) (h r)

/-- A stored table is found if and only if it is there and can be read. -/
lemma find_eq_ok_iff {db : SortedMap (Except StorageError Table)} {name : String} {t : Table} :
    Keeping.stored.find db name = .ok t ↔ db.get? name = some (.ok t) := by
  rw [Keeping.find]
  cases hget : db.get? name with
  | none => simp
  | some o => cases o <;> simp [Keeping.stored, Except.mapError]

/-- What a change that succeeds makes of a table is read back if it has no signed year, and else
not at all. -/
theorem find_of_change {db db' : SortedMap (Except StorageError Table)} {c : Change}
    (hdb : IsReadBack db) (hc : c.IsSound) (h : Keeping.stored.change db c = .ok db') :
    ∃ t, c.result (Keeping.stored.find db) = .ok t ∧ t.IsSound ∧
      ∀ t', Keeping.stored.find db' c.table = .ok t' ↔ t.IsDated ∧ t' = t := by
  cases c with
  | create name table =>
    simp only [Keeping.change] at h
    split at h
    · cases h
    · obtain ⟨t, ht, hdb'⟩ := bind_eq_ok_iff.1 h
      cases hdb'
      obtain ⟨rfl, hsound⟩ := hc t ht
      refine ⟨t, ht, hsound, fun t' => ?_⟩
      rw [find_eq_ok_iff, Change.table, SortedMap.get?_insert, if_pos rfl, Option.some.injEq,
        Keeping.stored, mapError_eq_ok_iff, Payload.toTable_ofTable hsound]
  | alter name addition =>
    simp only [Keeping.change, bind_eq_ok_iff] at h
    obtain ⟨t, ht, a, ha, hdb'⟩ := h
    cases hdb'
    -- the table before has been read back, so only the addition can have a signed year
    obtain ⟨hsound, hdated⟩ := hdb name t (find_eq_ok_iff.1 ht)
    have hrows := hc t a hsound ha
    refine ⟨a.apply t, ?_, isSound_apply hsound hrows, fun t' => ?_⟩
    · simp only [Change.result, ht, ha, bind, Except.bind]
      rfl
    · rw [find_eq_ok_iff, Change.table, SortedMap.get?_insert, if_pos rfl, Option.some.injEq,
        Keeping.stored, mapError_eq_ok_iff, extend_payload hrows, isDated_apply_iff hdated]

/-- A change keeps that all tables that can be read are as they were stored. -/
lemma isReadBack_change {db db' : SortedMap (Except StorageError Table)} {c : Change}
    (hdb : IsReadBack db) (hc : c.IsSound) (h : Keeping.stored.change db c = .ok db') :
    IsReadBack db' := by
  obtain ⟨u, -, hsound, hfind⟩ := find_of_change hdb hc h
  obtain ⟨o, ho⟩ := Keeping.insert_of_change h
  intro name t ht
  by_cases hname : c.table = name
  · subst hname
    obtain ⟨hdated, rfl⟩ := (hfind t).1 (find_eq_ok_iff.2 ht)
    exact ⟨hsound, hdated⟩
  · rw [ho, SortedMap.get?_insert, if_neg hname] at ht
    exact hdb name t ht

/-- After any operations the tables that can be read are as they were stored. -/
lemma isReadBack_state (ops : List Operation) : IsReadBack (Keeping.stored.state ops) :=
  Keeping.state_induction (fun name t ht => by cases ht)
    (fun _ _ _ hdb hc h => isReadBack_change hdb hc h) ops

/-- What creating a table from a payload in an empty memory writes. -/
lemma written_createEntity {name : String} {payload : Payload} (valid : payload.IsValid) {t : Table}
    (h : payload.toTable name = .ok t) :
    written [.createEntity name payload valid] = createdContents name t := by
  change (Operation.createEntity name payload valid).procedure.kept .empty ++ [] = _
  rw [List.append_nil, Operation.procedure, createEntity_eq, h]
  exact kept_creating fun x m => rfl

/-! ## The turn of the year 10000 -/

/-- A moment of the year 10000 in UTC that is one of 9999 to the west. -/
def turn : Timestamp where
  date := ⟨10000, 1, 1, by decide⟩
  second := 3599
  nanos := 0
  second_lt := by decide
  nanos_lt := by decide
  last_of_leap := by decide

/-- A table with a moment before the turn of the year 10000 west of Greenwich. -/
def turns : Table := ⟨"turns", [⟨"at", .datetime⟩], [[.datetime turn]], .empty⟩

/-- The payload of that table. -/
def turnsPayload : Payload where
  columns := ["at"]
  types := .insert .empty "at" .datetime
  rows := [[.str "9999-12-31T23:59:59-01:00"]]
  indexes := .empty

/-- The payload is valid. -/
lemma isValid_turns : turnsPayload.IsValid := by
  constructor <;> simp [turnsPayload, Json.WellFormed, SortedMap.empty]

/-- The payload gives the table back. -/
lemma toTable_turns : turnsPayload.toTable "turns" = .ok turns := by rfl

/-- The table is created from its payload. -/
def createTurns : Operation := .createEntity "turns" turnsPayload isValid_turns

/-- The effect of the creation. -/
lemma effect_createTurns :
    createTurns.effect = .change (.create "turns" (.ok turns)) (.table "turns") := by
  rw [createTurns, Operation.effect, toTable_turns]
  rfl

/-- What the creation writes does not collide. -/
lemma noCollision_createTurns : NoCollision (written [createTurns]) := by
  rw [createTurns, written_createEntity _ toTable_turns]
  refine noCollision_createdContents
    ⟨"467d31218d06059ef94a0ef2aab3d7c2ab10bcaec5c31bb94cff847617e6d3aa"⟩
    "e8aad5397df4a75d05d287a2b0cf8b89b85213ae525500573d4a1ed86400e800" ?_ ?_ ?_ <;>
    rw [Address.ofJson_eq]
  · decide +kernel
  · decide +kernel
  · decide +kernel

/-- The table is created with success. -/
lemma run_createTurns : ∃ r, (createTurns.run (memoryAfter [])).1 = .ok r := by
  have h := (refines_stored noCollision_createTurns).1 [] createTurns (List.prefix_refl _)
  rw [effect_createTurns] at h
  cases hrun : (createTurns.run (memoryAfter [])).1 with
  | ok r => exact ⟨r, rfl⟩
  | error err => rw [hrun] at h; cases h

/-! ## Loading -/

/-- A table loads after an operation that has changed it exactly if it has no timestamp with a signed
year then. A scalar that is accepted, in a literal or in a cell, is accepted again under the same
condition. -/
theorem load_of_change {ops : List Operation} {op : Operation} {c : Change} {r : Response}
    (hno : NoCollision (written (ops ++ [op]))) (hc : op.effect.change? = some c)
    (h : (op.run (memoryAfter ops)).1 = .ok r) :
    (∃ t, c.result (load (memoryAfter ops)) = .ok t ∧
      ∀ t', load (memoryAfter (ops ++ [op])) c.table = .ok t' ↔ t.IsDated ∧ t' = t) ∧
    (∀ column literal x, Sql.convert column literal = .ok x →
      ∀ y, Scalar.ofJson? column.type x.toJson = some y ↔ x.IsDated ∧ y = x) ∧
    ∀ type v x, v.WellFormed → Scalar.ofJson? type v = some x →
      ∀ y, Scalar.ofJson? type x.toJson = some y ↔ x.IsDated ∧ y = x := by
  refine ⟨?_, ?_, ?_⟩
  · obtain ⟨seen, he⟩ := Effect.change?_eq_some_iff.1 hc
    obtain ⟨hobserve, hload⟩ := refines_stored hno
    have hbefore : load (memoryAfter ops) = Keeping.stored.find (Keeping.stored.state ops) :=
      funext (hload ops (List.prefix_append _ _))
    have hseen := hobserve ops op (List.prefix_refl _)
    rw [h, he] at hseen
    obtain ⟨⟨db, hdb⟩, -⟩ := Keeping.observe_change_eq_ok_iff.1 hseen.symm
    have hstate : Keeping.stored.state (ops ++ [op]) = db := by
      rw [state_append, Keeping.step_eq, hc]
      exact Keeping.apply_of_change hdb
    obtain ⟨t, hresult, -, hfind⟩ :=
      find_of_change (isReadBack_state ops) (isSound_effect he) hdb
    refine ⟨t, by rw [hbefore, hresult], fun t' => ?_⟩
    rw [hload _ (List.prefix_refl _), hstate, hfind]
  · intro column literal x hx y
    rw [← Sql.type_convert hx, Scalar.ofJson?_eq_some_iff (Sql.isFinite_of_convert hx), eq_comm]
  · intro type v x hv hx y
    rw [← Scalar.type_ofJson? hx, Scalar.ofJson?_eq_some_iff (Scalar.isFinite_of_ofJson? hv hx),
      eq_comm]

/-- The creation of a table with a moment of the year 10000 succeeds, and the table never loads. -/
theorem load_of_change_createTurns :
    (∃ r, (createTurns.run .empty).1 = .ok r) ∧
      ∀ t, load (memoryAfter [createTurns]) "turns" ≠ .ok t := by
  obtain ⟨r, hr⟩ := run_createTurns
  refine ⟨⟨r, hr⟩, fun t ht => ?_⟩
  obtain ⟨⟨u, hu, hload⟩, -⟩ := @load_of_change [] createTurns (.create "turns" (.ok turns)) r
    noCollision_createTurns (by rw [effect_createTurns]; rfl) hr
  cases hu
  have hdated : turns.IsDated := ((hload t).1 ht).1
  revert hdated
  decide

end ProvenTables.Database
