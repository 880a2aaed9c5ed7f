import ProvenTables.Proofs.Database.Mutations
import ProvenTables.Proofs.Database.OwnAddresses
import ProvenTables.Proofs.Database.Snapshots

/-!
# Lineages

The address of a table and what loading it gives are determined by the mutations of the table alone,
whatever else is done to the database, and operations on different tables commute up to the identifiers
of registrations.
-/

namespace ProvenTables

/-- The objects of the memories are the same, and so are the registrations up to identifiers. -/
structure Memory.Alike (m m' : Memory) : Prop where
  objects : m.objects = m'.objects
  registered : ∀ name, (m.registry.pointer? name).map Pointer.anonymous =
    (m'.registry.pointer? name).map Pointer.anonymous

namespace Database

open Storage
open Procedure (Yields yields_done yields_of_reading?)

/-- The response without identifiers. -/
def Response.anonymous : Response → Response
  | reply r => .reply r
  | pointer p => .pointer p.anonymous
  | pointers ps => .pointers (ps.map Pointer.anonymous)

variable {op : Operation} {name : String} {l : Line} {m m' : Memory}

/-! ## Operations on lines -/

/-- Whether a response to a change is the same, up to identifiers, for registrations that are. -/
def IsAnonymous (respond : Written → Except DatabaseError Response) : Prop :=
  ∀ t k q q', q.anonymous = q'.anonymous →
    (respond ⟨t, k, q⟩).map Response.anonymous = (respond ⟨t, k, q'⟩).map Response.anonymous

/-- An operation with a change makes it, and responds to what has been written. -/
lemma exists_makes {c : Change} {seen : Observation} (h : op.effect = .change c seen) :
    ∃ p respond, op.procedure = (p >>= fun w => .ofExcept (respond w)) ∧ Makes p c ∧
      IsAnonymous respond := by
  cases op with
  | execute prover sql =>
    simp only [Operation.effect] at h
    split at h
    · rename_i s hs
      rw [procedure_execute hs]
      cases s with
      | createTable s =>
        cases h
        exact ⟨_, _, createTable_eq prover s, .create _ _, fun _ _ _ _ _ => rfl⟩
      | createIndex s =>
        cases h
        exact ⟨_, _, createIndex_eq s, .alter _ _ fun _ hp => hp, fun _ _ _ _ _ => rfl⟩
      | insert s =>
        cases h
        refine ⟨_, _, insert_eq prover s, .alter _ _ fun _ hp => hp, fun _ _ _ _ _ => ?_⟩
        cases prover <;> rfl
      | select s => cases h
    · cases h
  | createEntity name payload valid =>
    cases h
    refine ⟨_, _, createEntity_eq name payload, .create _ _, fun _ _ q q' hq => ?_⟩
    exact congrArg (fun p => Except.ok (Response.pointer p)) hq
  | appendData name payload valid =>
    cases h
    refine ⟨_, _, appendData_eq name payload, .alter _ _ fun _ _ => rfl, fun _ _ q q' hq => ?_⟩
    exact congrArg (fun p => Except.ok (Response.pointer p)) hq
  | pointer name => cases h
  | tables => cases h

/-- An operation whose change does nothing on a line. -/
lemma yields_of_deed_error {c : Change} {seen : Observation} {e : DatabaseError}
    (h : op.effect = .change c seen) (hd : c.deed l = .error e) (hm : Follows m c.table l) :
    op.procedure.Yields m (.error e) m [] := by
  obtain ⟨p, respond, hp, hmakes, -⟩ := exists_makes h
  rw [hp]
  exact (hmakes.yields_error hm hd).bind_error

/-- What an operation does whose change is made: everything but identifiers is said by the line. -/
lemma exists_yields_of_deed_ok {c : Change} {seen : Observation} {d : Deed}
    (h : op.effect = .change c seen) (hd : c.deed l = .ok d) :
    ∃ o, ∀ m, Follows m c.table l → ∃ res q r,
      op.procedure.Yields m res ⟨committed m.objects c.table d.payload l.history, r⟩
        (committedContents c.table d.payload l.history) ∧
      res.map Response.anonymous = o ∧ q.table = c.table ∧
      q.address = (l.commit c.table d.payload).history ∧ m.registry.Moves r q := by
  obtain ⟨p, respond, hp, hmakes, hrespond⟩ := exists_makes h
  -- a registration that differs from every other one by its identifier at most
  obtain ⟨q₀, hq₀⟩ : ∃ q₀ : Pointer, q₀ = ⟨0, c.table, (l.commit c.table d.payload).history⟩ := ⟨_, rfl⟩
  refine ⟨(respond ⟨d.table, l.commit c.table d.payload, q₀⟩).map Response.anonymous, fun m hm => ?_⟩
  obtain ⟨q, r, hyields, hname, haddress, hmoves⟩ := hmakes.yields_ok hm hd
  have hq : q.anonymous = q₀.anonymous := by
    rw [hq₀, Pointer.anonymous, Pointer.anonymous, hname, haddress]
  rw [hp]
  refine ⟨respond ⟨d.table, l.commit c.table d.payload, q⟩, q, r, ?_, hrespond _ _ q q₀ hq, hname,
    haddress, hmoves⟩
  exact hyields.bind (yields_done _ _)

/-- A query has the same outcome on all memories that follow a line, and writes nothing. -/
lemma Implements.exists_yields_query {p : Procedure DatabaseError Response}
    {answer : Table → Except DatabaseError Query.Answer} (h : Implements p (.query name answer))
    (l : Line) : ∃ o, ∀ m, Follows m name l → p.Yields m o m [] := by
  cases h with
  | query _ =>
    rename_i respond _
    refine ⟨do let t ← l.load name; let a ← answer t; return respond (t, a), fun m hm => ?_⟩
    obtain ⟨o, hload, ho, -⟩ := hm.yields_loadTable
    rw [← ho, querying, bind_assoc]
    cases o with
    | error e => exact hload.bind_error
    | ok x =>
      refine hload.bind ?_
      obtain ⟨q, t⟩ := x
      simp only [Except.map, bind, Except.bind]
      cases answer t <;> exact yields_done _ _

/-- A lookup has the same outcome on all memories that follow a line, numbers apart. -/
lemma Implements.exists_yields_pointer {p : Procedure DatabaseError Response}
    (h : Implements p (.pointer name)) (l : Line) :
    ∃ o, ∀ m, Follows m name l → ∃ res, p.Yields m res m [] ∧ res.map Response.anonymous = o := by
  cases h with
  | pointer =>
    cases hl : l.table with
    | none =>
      refine ⟨.error (.unknownTable name), fun m hm => ⟨.error (.unknownTable name), ?_, rfl⟩⟩
      have hpointer := yields_pointer m name
      rw [(hm.of_none hl).1] at hpointer
      exact hpointer.bind_error
    | some t =>
      refine ⟨.ok (.pointer ⟨0, name, Address.ofJson l.history.toJson⟩), fun m hm => ?_⟩
      obtain ⟨q, hq, hname, haddress, -⟩ := hm.of_some hl
      have hpointer := yields_pointer m name
      rw [hq] at hpointer
      refine ⟨.ok (.pointer q), hpointer.bind (yields_done _ _), ?_⟩
      simp only [Except.map, Response.anonymous, Pointer.anonymous, hname, haddress]

/-- The outcome of an operation and what it keeps are said by the line of the table that it is addressed
to, up to identifiers. -/
theorem exists_outcome (h : op.table? = some name) (l : Line) :
    ∃ o cs, ∀ m, Follows m name l →
      (op.run m).1.map Response.anonymous = o ∧ op.procedure.kept m = cs := by
  have himplements := implements_effect op
  rw [Operation.table?] at h
  -- the outcome is found from the line alone, before a memory that follows it is given
  cases he : op.effect with
  | fail e =>
    rw [he] at h
    cases h
  | change c seen =>
    rw [he] at h
    cases h
    cases hd : c.deed l with
    | error e =>
      refine ⟨.error e, [], fun m hm => ?_⟩
      have hyields := yields_of_deed_error he hd hm
      exact ⟨by rw [Operation.run, hyields.run]; rfl, hyields.kept⟩
    | ok d =>
      obtain ⟨o, ho⟩ := exists_yields_of_deed_ok he hd
      refine ⟨o, committedContents c.table d.payload l.history, fun m hm => ?_⟩
      obtain ⟨res, q, r, hyields, hres, -⟩ := ho m hm
      exact ⟨by rw [Operation.run, hyields.run]; exact hres, hyields.kept⟩
  | query name answer =>
    rw [he] at h himplements
    cases h
    obtain ⟨o, ho⟩ := himplements.exists_yields_query l
    refine ⟨o.map Response.anonymous, [], fun m hm => ?_⟩
    exact ⟨by rw [Operation.run, (ho m hm).run], (ho m hm).kept⟩
  | pointer name =>
    rw [he] at h himplements
    cases h
    obtain ⟨o, ho⟩ := himplements.exists_yields_pointer l
    refine ⟨o, [], fun m hm => ?_⟩
    obtain ⟨res, hyields, hres⟩ := ho m hm
    exact ⟨by rw [Operation.run, hyields.run]; exact hres, hyields.kept⟩
  | list =>
    rw [he] at h
    cases h

/-! ## Lines through runs -/

/-- The mutations of a table that operations make. -/
def mutationsFrom (name : String) : Memory → List Operation → List Mutation
  | _, [] => []
  | m, op :: ops => (op.made name m).toList ++ mutationsFrom name (op.run m).2 ops

/-- The mutations of a table that operations on an empty memory make. -/
def mutations (name : String) (ops : List Operation) : List Mutation := mutationsFrom name .empty ops

/-- The last operation adds the mutation that it has made. -/
lemma mutations_append (name : String) (ops : List Operation) (op : Operation) :
    mutations name (ops ++ [op]) = mutations name ops ++ (op.made name (memoryAfter ops)).toList := by
  have hfrom : ∀ m, mutationsFrom name m (ops ++ [op]) =
      mutationsFrom name m ops ++ (op.made name (ops.foldl (fun m op => (op.run m).2) m)).toList := by
    induction ops with
    | nil => exact fun m => by simp [mutationsFrom]
    | cons o ops ih => exact fun m => by simp [mutationsFrom, ih]
  exact hfrom .empty

/-- An operation without a change makes no mutation. -/
lemma mutation?_of_change?_eq_none (h : op.effect.change? = none) (t : Option Table) :
    op.mutation? t = none := by
  cases op with
  | execute prover sql =>
    simp only [Operation.effect] at h
    rw [Operation.mutation?]
    cases hs : Sql.parse sql with
    | error e => rfl
    | ok s =>
      rw [hs] at h
      cases s with
      | select s => rfl
      | _ => cases h
  | createEntity name payload valid => cases h
  | appendData name payload valid => cases h
  | pointer name => rfl
  | tables => rfl

/-- An operation that does not change a table makes no mutation of it. -/
lemma made_of_others (h : ∀ c, op.effect.change? = some c → c.table ≠ name) (m : Memory) :
    op.made name m = none := by
  rw [Operation.made]
  split
  · rename_i hmade
    cases hc : op.effect.change? with
    | none => exact mutation?_of_change?_eq_none hc _
    | some c =>
      obtain ⟨seen, he⟩ := Effect.change?_eq_some_iff.1 hc
      rw [Operation.table?, he] at hmade
      exact absurd (Option.some.inj hmade.1) (h c hc)
  · rfl

/-- The change of an operation that succeeds is made. -/
lemma exists_deed_of_isOk {c : Change} {seen : Observation} (h : op.effect = .change c seen)
    (hm : Follows m c.table l) (hok : (op.run m).1.isOk = true) : ∃ d, c.deed l = .ok d := by
  cases hd : c.deed l with
  | ok d => exact ⟨d, rfl⟩
  | error e =>
    rw [Operation.run, (yields_of_deed_error h hd hm).run] at hok
    cases hok

/-- What is done to a table is the mutation that is made of it. -/
lemma exists_made_of_deed {c : Change} {seen : Observation} {d : Deed} (h : op.effect = .change c seen)
    (hm : Follows m c.table l) (hd : c.deed l = .ok d) (hok : (op.run m).1.isOk = true) :
    ∃ μ, op.made c.table m = some μ ∧ Mutation.apply c.table l μ = l.push c.table d.payload := by
  obtain ⟨μ, hμ, hpayload⟩ := exists_mutation h hd
  refine ⟨μ, ?_, ?_⟩
  · rw [Operation.made, if_pos ⟨by rw [Operation.table?, h]; rfl, hok⟩, hm.load_eq, Line.toOption_load]
    exact hμ
  · rw [Mutation.apply, hpayload]
    rfl

/-- After an operation the memory follows the line with the mutation that the operation has made. -/
theorem Follows.run {contents : List String} (h : Follows m name l) (hclosed : m.IsClosed)
    (hm : m.objects.IsAddressed contents) (hno : NoCollision contents)
    (hkept : op.procedure.kept m ⊆ contents) :
    Follows (op.run m).2 name ((op.made name m).toList.foldl (Mutation.apply name) l) := by
  have hframe := (implements_effect op).frame (isRegular_effect op) hclosed
  by_cases hothers : ∀ c, op.effect.change? = some c → c.table ≠ name
  · rw [made_of_others hothers]
    exact h.grows hframe.grows (hframe.others name hothers)
  · push Not at hothers
    obtain ⟨c, hc, rfl⟩ := hothers
    obtain ⟨seen, he⟩ := Effect.change?_eq_some_iff.1 hc
    cases hd : c.deed l with
    | error e =>
      have hrun : op.run m = (.error e, m) := (yields_of_deed_error he hd h).run
      rw [Operation.made, hrun, if_neg fun hok => by cases hok.2]
      exact h
    | ok d =>
      obtain ⟨o, ho⟩ := exists_yields_of_deed_ok he hd
      obtain ⟨res, q, r, hyields, -, hname, haddress, hmoves⟩ := ho m h
      have hrun : op.run m = (res, _) := hyields.run
      cases res with
      | error e =>
        -- this does not happen, but a failure would leave the memory as it is
        have hsame : (op.run m).2 = m := (hframe.failed e (congrArg Prod.fst hrun)).1
        rw [hsame, Operation.made, hrun, if_neg fun hok => by cases hok.2]
        exact h
      | ok res =>
        obtain ⟨μ, hmade, happly⟩ := exists_made_of_deed he h hd (by rw [hrun]; rfl)
        rw [hmade, hrun, Option.toList_some, List.foldl_cons, List.foldl_nil, happly]
        exact h.push (Change.table_of_deed hd) (Change.isEncoded_deed hd) hm hno
          (hyields.kept ▸ hkept) hname haddress hmoves

/-- The last operation adds its mutation to the lineage. -/
lemma lineage_append (ops : List Operation) (op : Operation) (name : String) :
    lineage name (mutations name (ops ++ [op])) =
      (op.made name (memoryAfter ops)).toList.foldl (Mutation.apply name)
        (lineage name (mutations name ops)) := by
  rw [mutations_append, lineage, List.foldl_append]
  rfl

/-- After operations the memory follows the line of the mutations that they have made. -/
theorem follows_lineage {ops : List Operation} (hno : NoCollision (written ops)) (name : String) :
    Follows (memoryAfter ops) name (lineage name (mutations name ops)) := by
  obtain ⟨contents, hcontents⟩ : ∃ contents, contents = written ops := ⟨_, rfl⟩
  have hsub : written ops ⊆ contents := hcontents ▸ List.Subset.refl _
  rw [← hcontents] at hno
  clear hcontents
  induction ops using List.reverseRecOn with
  | nil => exact follows_empty name
  | append_singleton ops op ih =>
    rw [written_append, List.append_subset] at hsub
    obtain ⟨cs, hvalid, -⟩ := exists_isValid hno hsub.1
    rw [memoryAfter_append, lineage_append]
    exact (ih hsub.1).run (isClosed_memoryAfter ops) hvalid.addressed hno hsub.2

/-- The line of a table after an operation that has changed it. -/
lemma exists_lineage_of_isOk {ops : List Operation} {c : Change} {seen : Observation}
    (h : op.effect = .change c seen) (hno : NoCollision (written ops))
    (hok : (op.run (memoryAfter ops)).1.isOk = true) :
    ∃ d, c.deed (lineage c.table (mutations c.table ops)) = .ok d ∧
      lineage c.table (mutations c.table (ops ++ [op])) =
        (lineage c.table (mutations c.table ops)).push c.table d.payload := by
  have hfollows := follows_lineage hno c.table
  obtain ⟨d, hd⟩ := exists_deed_of_isOk h hfollows hok
  obtain ⟨μ, hmade, happly⟩ := exists_made_of_deed h hfollows hd hok
  refine ⟨d, hd, ?_⟩
  rw [lineage_append, hmade, Option.toList_some, List.foldl_cons, List.foldl_nil, happly]

/-! ## Stores after runs -/

/-- What is stored after operations is what they have written, under its own address. -/
lemma get?_memoryAfter {contents : List String} {ops : List Operation} (hno : NoCollision contents)
    (hsub : written ops ⊆ contents) (k d : String) :
    (memoryAfter ops).objects.get? k = some d ↔ d ∈ written ops ∧ (Address.ofText d).text = k := by
  induction ops using List.reverseRecOn with
  | nil => simp [memoryAfter, written, writtenFrom, Memory.empty]
  | append_singleton ops op ih =>
    rw [written_append, List.append_subset] at hsub
    obtain ⟨cs, hvalid, -⟩ := exists_isValid hno hsub.1
    rw [memoryAfter_append, written_append, Operation.run,
      (keepsOwn_operation op).get?_run hvalid.addressed hno hsub.2, ih hsub.1,
      List.mem_append, or_and_right]

/-- Operations that write the same leave the same store. -/
lemma objects_memoryAfter {ops ops' : List Operation} (hno : NoCollision (written ops))
    (h : ∀ d, d ∈ written ops ↔ d ∈ written ops') :
    (memoryAfter ops).objects = (memoryAfter ops').objects := by
  refine SortedMap.ext_get? fun k => Option.ext fun d => ?_
  rw [get?_memoryAfter hno (List.Subset.refl _), get?_memoryAfter hno fun d hd => (h d).2 hd, h d]

/-! ## Operations on different tables -/

section Commuting

variable {ops : List Operation} {a b : Operation} {other : String}

/-- The change of an operation on one table is no change of another. -/
lemma others_of_table? (h : op.table? = some other) (hne : name ≠ other) (c : Change)
    (hc : op.effect.change? = some c) : c.table ≠ name := by
  obtain ⟨seen, he⟩ := Effect.change?_eq_some_iff.1 hc
  rw [Operation.table?, he] at h
  exact fun heq => hne (heq ▸ Option.some.inj h)

/-- An operation does on memories that follow the same line of its table the same. -/
lemma same_of_follows (h : op.table? = some name) (hm : Follows m name l) (hm' : Follows m' name l) :
    (op.run m).1.map Response.anonymous = (op.run m').1.map Response.anonymous ∧
      op.procedure.kept m = op.procedure.kept m' ∧ ∀ n, op.made n m = op.made n m' := by
  obtain ⟨o, cs, ho⟩ := exists_outcome h l
  obtain ⟨hrun, hkept⟩ := ho m hm
  obtain ⟨hrun', hkept'⟩ := ho m' hm'
  refine ⟨hrun.trans hrun'.symm, hkept.trans hkept'.symm, fun n => ?_⟩
  have hok : (op.run m).1.isOk = (op.run m').1.isOk := by
    rw [← isOk_map Response.anonymous, hrun.trans hrun'.symm, isOk_map]
  rw [Operation.made, Operation.made, hok]
  by_cases hn : op.table? = some n
  · cases h.symm.trans hn
    rw [hm.load_eq, hm'.load_eq]
  · rw [if_neg fun hmade => hn hmade.1, if_neg fun hmade => hn hmade.1]

/-- An operation on another table does not matter to an operation. -/
lemma same_after_other (hno : NoCollision (written ops)) (ha : a.table? = some name)
    (hb : b.table? = some other) (hne : name ≠ other) :
    (a.run (memoryAfter (ops ++ [b]))).1.map Response.anonymous =
        (a.run (memoryAfter ops)).1.map Response.anonymous ∧
      a.procedure.kept (memoryAfter (ops ++ [b])) = a.procedure.kept (memoryAfter ops) ∧
      ∀ n, a.made n (memoryAfter (ops ++ [b])) = a.made n (memoryAfter ops) := by
  have hframe := (implements_effect b).frame (isRegular_effect b) (isClosed_memoryAfter ops)
  have hfollows := follows_lineage hno name
  rw [memoryAfter_append]
  exact same_of_follows ha
    (hfollows.grows hframe.grows (hframe.others name (others_of_table? hb hne))) hfollows

/-- An operation on another table makes no mutation. -/
lemma made_of_other (hb : b.table? = some other) (hne : name ≠ other) (m : Memory) :
    b.made name m = none :=
  made_of_others (others_of_table? hb hne) m

/-- Two operations come one after the other. -/
lemma append_pair (ops : List Operation) (a b : Operation) : ops ++ [a, b] = ops ++ [a] ++ [b] := by
  rw [List.append_assoc]
  rfl

/-- In either order, operations on different tables write the same. -/
lemma written_swap (hno : NoCollision (written ops)) (ha : a.table? = some name)
    (hb : b.table? = some other) (hne : name ≠ other) :
    (written (ops ++ [a, b])).Perm (written (ops ++ [b, a])) := by
  obtain ⟨-, hkept, -⟩ := same_after_other hno ha hb hne
  obtain ⟨-, hkept', -⟩ := same_after_other hno hb ha hne.symm
  rw [append_pair, append_pair, written_append, written_append, written_append, written_append,
    hkept, hkept', List.append_assoc, List.append_assoc]
  exact List.perm_append_comm.append_left _

/-- In either order, operations on different tables make the same mutations of every table. -/
lemma mutations_swap (hno : NoCollision (written ops)) (ha : a.table? = some name)
    (hb : b.table? = some other) (hne : name ≠ other) (n : String) :
    mutations n (ops ++ [a, b]) = mutations n (ops ++ [b, a]) := by
  obtain ⟨-, -, hmade⟩ := same_after_other hno ha hb hne
  obtain ⟨-, -, hmade'⟩ := same_after_other hno hb ha hne.symm
  rw [append_pair, append_pair, mutations_append, mutations_append, mutations_append,
    mutations_append, hmade, hmade', List.append_assoc, List.append_assoc]
  -- no table is the one of both operations, so that one of the two makes no mutation
  by_cases hn : n = other
  · rw [made_of_other ha (hn ▸ hne.symm), Option.toList_none, List.append_nil, List.nil_append]
  · rw [made_of_other hb hn, Option.toList_none, List.append_nil, List.nil_append]

end Commuting

/-- If two runs make the same mutations of a table, whatever else they do, then they leave it with the
same address, and it loads to the same table. Operations on different tables therefore commute: in either
order they have the same outcomes and leave the same database, up to identifiers. -/
theorem address_of_mutations :
    (∀ (ops ops' : List Operation) (name : String), NoCollision (written ops) →
      NoCollision (written ops') → mutations name ops = mutations name ops' →
      ((memoryAfter ops).registry.pointer? name).map Pointer.address =
          ((memoryAfter ops').registry.pointer? name).map Pointer.address ∧
        load (memoryAfter ops) name = load (memoryAfter ops') name) ∧
    ∀ (ops : List Operation) (a b : Operation) (name other : String), a.table? = some name →
      b.table? = some other → name ≠ other → NoCollision (written (ops ++ [a, b])) →
      (a.run (memoryAfter (ops ++ [b]))).1.map Response.anonymous =
          (a.run (memoryAfter ops)).1.map Response.anonymous ∧
        (b.run (memoryAfter (ops ++ [a]))).1.map Response.anonymous =
          (b.run (memoryAfter ops)).1.map Response.anonymous ∧
        (memoryAfter (ops ++ [a, b])).Alike (memoryAfter (ops ++ [b, a])) ∧
        ∀ n, load (memoryAfter (ops ++ [a, b])) n = load (memoryAfter (ops ++ [b, a])) n := by
  have hsame : ∀ (ops ops' : List Operation) (name : String), NoCollision (written ops) →
      NoCollision (written ops') → mutations name ops = mutations name ops' →
      ((memoryAfter ops).registry.pointer? name).map Pointer.anonymous =
          ((memoryAfter ops').registry.pointer? name).map Pointer.anonymous ∧
        load (memoryAfter ops) name = load (memoryAfter ops') name := by
    intro ops ops' name hno hno' h
    have hfollows := follows_lineage hno name
    have hfollows' := follows_lineage hno' name
    rw [← h] at hfollows'
    exact ⟨hfollows.pointer?_eq.trans hfollows'.pointer?_eq.symm,
      hfollows.load_eq.trans hfollows'.load_eq.symm⟩
  refine ⟨fun ops ops' name hno hno' h => ?_, fun ops a b name other ha hb hne hno => ?_⟩
  · obtain ⟨hpointer, hload⟩ := hsame ops ops' name hno hno' h
    refine ⟨?_, hload⟩
    have haddress := congrArg (Option.map Pointer.address) hpointer
    rw [Option.map_map, Option.map_map] at haddress
    exact haddress
  · have hops : NoCollision (written ops) := hno.mono (written_subset (List.prefix_append _ _))
    have hperm := written_swap hops ha hb hne
    have hno' : NoCollision (written (ops ++ [b, a])) := hno.mono hperm.symm.subset
    have hswap := fun n => hsame _ _ n hno hno' (mutations_swap hops ha hb hne n)
    exact ⟨(same_after_other hops ha hb hne).1, (same_after_other hops hb ha hne.symm).1,
      ⟨objects_memoryAfter hno fun d => hperm.mem_iff, fun n => (hswap n).1⟩, fun n => (hswap n).2⟩

/-! ## Two tables -/

/-- The creation of notes is about the table of that name. -/
lemma table?_createNotes : createNotes.table? = some "notes" := by
  rw [Operation.table?, effect_createNotes]
  rfl

/-- The creation of ghosts is about the table of that name. -/
lemma table?_createGhosts : createGhosts.table? = some "ghosts" := rfl

/-- What creating both tables writes does not collide. -/
lemma noCollision_notes_ghosts : NoCollision (written [createNotes, createGhosts]) := by
  have hnotes : written [createNotes] = createdContents "notes" notes := by
    change createNotes.procedure.kept .empty ++ [] = _
    rw [List.append_nil, procedure_createNotes, kept_creating fun x m => rfl]
  have hghosts : createGhosts.procedure.kept (memoryAfter []) = createdContents "ghosts" ghosts :=
    (List.append_nil _).symm.trans (written_createEntity isValid_ghosts toTable_ghosts)
  have hempty : NoCollision (written []) := fun c hc => by cases hc
  obtain ⟨-, hkept, -⟩ := same_after_other hempty table?_createGhosts table?_createNotes (by decide)
  refine noCollision_of_nodup ?_
  rw [show [createNotes, createGhosts] = [createNotes] ++ [createGhosts] from rfl, written_append, hnotes,
    show [createNotes] = [] ++ [createNotes] from rfl, hkept, hghosts, List.map_append, addresses_notes,
    addresses_ghosts]
  decide

/-- A table has the address that it has without the other table, which may be created before or after it. -/
theorem address_of_mutations_notes :
    NoCollision (written [createNotes]) ∧ NoCollision (written [createNotes, createGhosts]) ∧
      mutations "notes" [createNotes] = mutations "notes" [createNotes, createGhosts] ∧
      ((memoryAfter [createNotes]).registry.pointer? "notes").map Pointer.address =
        ((memoryAfter [createNotes, createGhosts]).registry.pointer? "notes").map Pointer.address ∧
      createNotes.table? = some "notes" ∧ createGhosts.table? = some "ghosts" ∧
      (memoryAfter [createNotes, createGhosts]).Alike (memoryAfter [createGhosts, createNotes]) := by
  have hno := noCollision_notes_ghosts
  have hnotes : NoCollision (written [createNotes]) :=
    hno.mono (written_subset (List.prefix_append [createNotes] [createGhosts]))
  have hmutations : mutations "notes" [createNotes] = mutations "notes" [createNotes, createGhosts] := by
    rw [show [createNotes, createGhosts] = [createNotes] ++ [createGhosts] from rfl, mutations_append,
      made_of_other table?_createGhosts (by decide), Option.toList_none, List.append_nil]
  obtain ⟨hsame, hcommute⟩ := address_of_mutations
  obtain ⟨-, -, halike, -⟩ := hcommute [] createNotes createGhosts "notes" "ghosts" table?_createNotes
    table?_createGhosts (by decide) hno
  exact ⟨hnotes, hno, hmutations, (hsame _ _ "notes" hnotes hno hmutations).1, table?_createNotes,
    table?_createGhosts, halike⟩

end Database

end ProvenTables
