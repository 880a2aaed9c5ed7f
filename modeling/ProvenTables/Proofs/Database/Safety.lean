import ProvenTables.Proofs.Database.Interference

/-!
# Safety of operations

The procedure of every operation is safe: it makes its change, with the last of its requests, if the
change is possible after the changes that have been made until then, and otherwise its outcome is the
one that the effect has after the changes that had been made at some moment since its start. Only a
change of a table that others have changed since may be refused as a conflict.
-/

namespace ProvenTables.Database

open Storage
open Procedure (reading? reading?_bind_ok reading?_bind_eq_ok_iff reading?_grows)

/-- What is seen of the outcome of an operation. -/
def observe (o : Except DatabaseError Response) : Except DatabaseError Observation :=
  o.map Response.observation

/-- Whether an outcome is that of a change that met another one. -/
def IsConflict {α : Type} : Except DatabaseError α → Prop
  | .error (.storage (.conflict _ _ _)) => True
  | _ => False

/-- The change of the effect has been made, after the changes `cs`. -/
def Committed (contents : List String) (e : Effect) (cs : List Change) (m : Memory)
    (o : Except DatabaseError Response) : Prop :=
  ∃ c ∈ e.change?, World.IsValid contents ⟨m, cs ++ [c]⟩ ∧ (∃ r, o = .ok r) ∧
    observe o = Keeping.stored.observe (storedAfter cs) e

/-- The effect has changed nothing. Its outcome belongs to a moment since the changes `since`, or it
is a change that met another one. -/
def Finished (since : List Change) (e : Effect) (w : World) (o : Except DatabaseError Response) :
    Prop :=
  (∃ cs, since <+: cs ∧ cs <+: w.applied ∧ observe o = Keeping.stored.observe (storedAfter cs) e ∧
      (e.change?.isSome → ∃ err, o = .error err)) ∨
    IsConflict o ∧ e.change?.isSome ∧ since ≠ w.applied

variable {contents : List String} {w : World}

/-! ## Writing -/

/-- A payload is written such that its history replays to what the payload adds. -/
lemma safe_commit {table : String} {previous : Address} {payload : Payload} {h : History}
    {t : Option Table} {post : World → Except StorageError Commit → Prop}
    (hno : NoCollision contents) (hp : payload.IsEncoded)
    (hload : (loadHistory previous).reading? w.memory.objects = some (.ok h))
    (hentries : (replayEntries table none h.entries).reading? w.memory.objects = some (.ok t))
    (hpost : ∀ w', w.Le w' → w'.IsValid contents → ∀ c : Commit,
      (replay table c.history).reading? w'.memory.objects =
        some ((add table payload t).mapError .data) → post w' (.ok c)) :
    Safe contents never post (Storage.commit table previous payload) w := by
  refine safe_bind (safe_bind (safe_of_reading? hload fun w₁ h₁ _ => ?_))
  refine safe_bind (safe_put hno fun w₂ h₂ _ hchunk => ?_)
  refine safe_bind (safe_put hno fun w₃ h₃ _ hhistory => ?_)
  intro w₄ h₄ _ w₅ h₅ hvalid
  refine hpost w₅ (h₁.trans (h₂.trans (h₃.trans (h₄.trans h₅)))) hvalid _ ?_
  have hlater := h₃.trans (h₄.trans h₅)
  exact reading?_replay_record hp
    (reading?_grows (h₁.trans (h₂.trans hlater)).objects hentries)
    (hchunk.grows hlater.objects) (hhistory.grows (h₄.trans h₅).objects)

/-- A world in which a name is moved to the address of what is stored for it. -/
lemma isValid_commit {c : Change} {r : Registry} {p : Pointer} {t : Except StorageError Table}
    (hvalid : w.IsValid contents)
    (hc : storedAfter (w.applied ++ [c]) = (storedAfter w.applied).insert p.table t)
    (hr : w.memory.registry.Moves r p)
    (ht : (replay p.table p.address).reading? w.memory.objects = some t) :
    World.IsValid contents ⟨{ w.memory with registry := r }, w.applied ++ [c]⟩ where
  addressed := hvalid.addressed
  registers name := by
    rw [hc, SortedMap.get?_insert]
    split
    · rename_i hname
      subst hname
      exact ⟨p, (hr _).trans (if_pos rfl), rfl, ht⟩
    · rename_i hname
      refine (hvalid.registers name).grows ?_ (.refl _)
      rw [hr, if_neg hname]

/-- What the request that makes a change leaves: the change has been made, and is seen. -/
lemma committed_of_change {c : Change} {seen : Observation} {r : Registry} {p : Pointer}
    {t : Except StorageError Table} {res : Response} (hvalid : w.IsValid contents)
    (hchange : Keeping.stored.change (storedAfter w.applied) c =
      .ok ((storedAfter w.applied).insert p.table t))
    (hr : w.memory.registry.Moves r p)
    (ht : (replay p.table p.address).reading? w.memory.objects = some t)
    (hseen : res.observation = seen) :
    Committed contents (.change c seen) w.applied { w.memory with registry := r } (.ok res) := by
  refine ⟨c, rfl, isValid_commit hvalid ?_ hr ht, ⟨res, rfl⟩, ?_⟩
  · rw [storedAfter, Keeping.after_append, Keeping.apply_of_change hchange]
  · simp only [Keeping.observe, Keeping.perform, hchange, observe]
    rw [← hseen]
    rfl

/-! ## Creating -/

/-- A table is registered if and only if the changes have created it. -/
lemma contains_storedAfter (hvalid : w.IsValid contents) (name : String) :
    (storedAfter w.applied).contains name = (w.memory.registry.pointer? name).isSome := by
  rcases hvalid.registered name with ⟨hget, hnone⟩ | ⟨o, p, hget, hp, -⟩
  · rw [SortedMap.contains, hget, hnone]
    rfl
  · rw [SortedMap.contains, hget, hp]
    rfl

variable {name : String} {seen : Observation} {respond : Written → Except DatabaseError Response}

/-- A change that fails at some time since the start is finished with its error. -/
lemma finished_of_error {since cs : List Change} {c : Change} {err : DatabaseError}
    (hsince : since <+: cs) (hcs : cs <+: w.applied)
    (h : Keeping.stored.change (storedAfter cs) c = .error err) :
    Finished since (.change c seen) w (.error err) := by
  refine .inl ⟨cs, hsince, hcs, ?_, fun _ => ⟨err, rfl⟩⟩
  simp only [Keeping.observe, Keeping.perform, h]
  rfl

/-- The last request of a creation: it registers the table exactly if nobody else has created one of the
name since it was looked up. -/
lemma safe_register {t : Table} {a : Address} {since : List Change}
    {next : Pointer → Except DatabaseError Response} (hsince : since <+: w.applied)
    (hstored : (replay name a).reading? w.memory.objects = some (Keeping.stored.create name t))
    (hnext : ∀ p, p.table = name → ∃ r, next p = .ok r ∧ r.observation = seen) :
    Safe contents (Committed contents (.change (.create name (.ok t)) seen))
      (Finished since (.change (.create name (.ok t)) seen))
      (request (.create name a) >>= fun p => .ofExcept (next p)) w := by
  intro u hu hvalid _
  have hfound := contains_storedAfter hvalid name
  by_cases hexists : u.memory.registry.pointers.contains name = true
  · -- another client has created the table
    rw [Memory.answer_create_of_contains _ hexists, if_neg (by simp [Request.commits])]
    refine ⟨hvalid, fun v hv _ => finished_of_error (hsince.trans hu.applied) hv.applied ?_⟩
    rw [Keeping.change, if_pos (hfound.trans hexists)]
    rfl
  · obtain ⟨p, r, hanswer, hname, haddress, hmoves⟩ := Memory.answer_create a hexists
    have hnew : (storedAfter u.applied).contains name = false :=
      hfound.trans (Bool.eq_false_iff.2 hexists)
    have hchange : Keeping.stored.change (storedAfter u.applied) (.create name (.ok t)) =
        .ok ((storedAfter u.applied).insert p.table (Keeping.stored.create name t)) := by
      rw [Keeping.change, if_neg (by simp [hnew]), hname]
      rfl
    obtain ⟨res, hres, hseen⟩ := hnext p hname
    rw [hanswer, if_pos (by simp [Request.commits])]
    refine ⟨.ok res, ?_, committed_of_change hvalid hchange hmoves ?_ hseen⟩
    · rw [← hres]
      rfl
    · rw [hname, haddress]
      exact reading?_grows hu.objects hstored

/-- Creating a table is safe. -/
theorem safe_creating {table : Except DatabaseError Table} (hno : NoCollision contents)
    (hrespond : ∀ x, x.pointer.table = name → ∃ r, respond x = .ok r ∧ r.observation = seen)
    (w : World) :
    Safe contents (Committed contents (.change (.create name table) seen))
      (Finished w.applied (.change (.create name table) seen))
      (creating name table >>= fun x => .ofExcept (respond x)) w := by
  simp only [creating, bind_assoc]
  refine safe_lookup fun w₁ h₁ hvalid₁ => ?_
  have hfound := contains_storedAfter hvalid₁ name
  split
  · -- the table is there at this moment
    rename_i hsome
    intro w₂ h₂ _
    refine finished_of_error h₁.applied h₂.applied ?_
    rw [Keeping.change, if_pos (hfound.trans hsome)]
  rename_i hnone
  have hnew : (storedAfter w₁.applied).contains name = false := by
    rw [hfound]
    simpa using hnone
  cases table with
  | error e =>
    intro w₂ h₂ _
    refine finished_of_error h₁.applied h₂.applied ?_
    rw [Keeping.change, if_neg (by simp [hnew])]
    rfl
  | ok t =>
    simp only [bind_assoc, ofExcept_ok_bind]
    refine safe_bind (safe_mapError ?_)
    refine safe_commit hno (Payload.isEncoded_ofTable t) (h := .empty) (t := none) rfl rfl
      fun w₂ h₂ _ c hreplay => ?_
    -- the table is looked for again when it is registered
    exact safe_register (h₁.trans h₂).applied hreplay fun p hp => hrespond ⟨t, c, p⟩ hp

/-! ## Altering -/

/-- A table is loaded as it is stored at some moment. -/
lemma safe_loadTable {post : World → Except DatabaseError (Pointer × Table) → Prop}
    (herror : ∀ w₁ w₂ e, w.Le w₁ → w₁.Le w₂ →
      Keeping.stored.find (storedAfter w₁.applied) name = .error e → post w₂ (.error e))
    (hok : ∀ w₁ w₂ p t, w.Le w₁ → w₁.Le w₂ → w₁.memory.registry.pointer? name = some p →
      p.table = name → (replay name p.address).reading? w₁.memory.objects = some (.ok t) →
      Keeping.stored.find (storedAfter w₁.applied) name = .ok t → post w₂ (.ok (p, t))) :
    Safe contents never post (loadTable name) w := by
  refine safe_bind (safe_lookup fun w₁ h₁ hvalid₁ => ?_)
  rcases hvalid₁.registered name with ⟨hget, hnone⟩ | ⟨o, p, hget, hp, hname, hreplay⟩
  · rw [hnone]
    intro w₂ h₂ _ w₃ h₃ _
    refine herror w₁ w₃ _ h₁ (h₂.trans h₃) ?_
    rw [Keeping.find, hget]
  · rw [hp]
    intro w₂ h₂ _
    have hread : ((replay p.table p.address).mapError DatabaseError.storage).reading?
        w₂.memory.objects = some (o.mapError .storage) := by
      rw [Procedure.reading?_mapError, hname, reading?_grows h₂.objects hreplay]
      rfl
    refine safe_bind (safe_of_reading? hread fun w₃ h₃ _ => ?_)
    cases o with
    | error e =>
      intro w₄ h₄ _
      refine herror w₁ w₄ _ h₁ (h₂.trans (h₃.trans h₄)) ?_
      rw [Keeping.find, hget]
      rfl
    | ok t =>
      intro w₄ h₄ _
      refine hok w₁ w₄ p t h₁ (h₂.trans (h₃.trans h₄)) hp hname hreplay ?_
      rw [Keeping.find, hget]
      rfl

/-- The last request of an addition: it moves the table exactly if nobody else has moved it since it
was loaded, in the world `v`, from the registration `p`. -/
lemma safe_repoint {v : World} {p : Pointer} {t : Table} {a : Addition} {new : Address}
    {addition : Table → Except DatabaseError Addition} {since : List Change}
    {next : Pointer → Except DatabaseError Response}
    (hsince : since <+: v.applied) (hp : v.memory.registry.pointer? name = some p) (hle : v.Le w)
    (hload : (replay name p.address).reading? v.memory.objects = some (.ok t))
    (ha : addition t = .ok a)
    (hnew : (replay name new).reading? w.memory.objects =
      some ((extend t (a.payload t)).mapError .data))
    (hnext : ∀ q, q.table = name → ∃ r, next q = .ok r ∧ r.observation = seen) :
    Safe contents (Committed contents (.change (.alter name addition) seen))
      (Finished since (.change (.alter name addition) seen))
      (request (.repoint name p.address new) >>= fun q => .ofExcept (next q)) w := by
  intro u hu hvalid _
  rcases hvalid.registered name with ⟨hget, hnone⟩ | ⟨o, q, hget, hq, hqname, hreplay⟩
  · rw [Memory.answer_repoint_of_none _ _ hnone, if_neg (by simp [Request.commits])]
    refine ⟨hvalid, fun x hx _ =>
      finished_of_error (hsince.trans (hle.trans hu).applied) hx.applied ?_⟩
    rw [Keeping.change, Keeping.find, hget]
    rfl
  · by_cases hmoved : q.address = p.address
    · -- an address stands for one table, so the table is the one that was loaded
      have hsame : o = .ok t := by
        rw [hmoved, reading?_grows (hle.trans hu).objects hload] at hreplay
        exact (Option.some.inj hreplay).symm
      subst hsame
      obtain ⟨q', r, hanswer, hname', haddress, hmoves⟩ :=
        Memory.answer_repoint new hq hqname hmoved
      have hchange : Keeping.stored.change (storedAfter u.applied) (.alter name addition) =
          .ok ((storedAfter u.applied).insert q'.table (Keeping.stored.alter t a)) := by
        rw [hname']
        simp only [Keeping.change, Keeping.find, hget]
        simp only [Keeping.stored, Except.mapError, bind, Except.bind, ha]
        rfl
      obtain ⟨res, hres, hseen⟩ := hnext q' hname'
      rw [hanswer, if_pos (by simp [Request.commits])]
      refine ⟨.ok res, ?_, committed_of_change hvalid hchange hmoves ?_ hseen⟩
      · rw [← hres]
        rfl
      · rw [hname', haddress]
        exact reading?_grows hu.objects hnew
    · rw [Memory.answer_repoint_of_ne _ hq hmoved, if_neg (by simp [Request.commits])]
      refine ⟨hvalid, fun x hx _ => .inr ⟨trivial, rfl, fun heq => hmoved ?_⟩⟩
      -- without other changes the registration would be the same
      have hfrom : v.applied = u.applied := by
        refine (hle.trans hu).applied.eq_of_length_le ?_
        have h₁ := hsince.length_le
        have h₂ := hx.applied.length_le
        rw [← heq] at h₂
        exact h₂.trans h₁
      rw [← (hle.trans hu).registry hfrom, hp] at hq
      rw [Option.some.inj hq]

/-- Altering a table is safe. -/
theorem safe_altering {key : Pointer → String} {addition : Table → Except DatabaseError Addition}
    (hno : NoCollision contents) (hkey : ∀ p, p.table = name → key p = name)
    (hrespond : ∀ x a, addition x.table = .ok a → x.pointer.table = name →
      ∃ r, respond x = .ok r ∧ r.observation = seen)
    (w : World) :
    Safe contents (Committed contents (.change (.alter name addition) seen))
      (Finished w.applied (.change (.alter name addition) seen))
      (altering key name addition >>= fun x => .ofExcept (respond x)) w := by
  simp only [altering, bind_assoc]
  refine safe_bind (safe_loadTable ?_ ?_)
  · intro w₁ w₂ e h₁ h₂ hfind w₃ h₃ _
    refine finished_of_error h₁.applied (h₂.trans h₃).applied ?_
    rw [Keeping.change, hfind]
    rfl
  · intro w₁ w₂ p t h₁ h₂ hp hname hload hfind
    simp only
    cases ha : addition t with
    | error e =>
      intro w₃ h₃ _
      refine finished_of_error h₁.applied (h₂.trans h₃).applied ?_
      simp only [Keeping.change, hfind, bind, Except.bind, ha]
    | ok a =>
      simp only [ofExcept_ok_bind]
      obtain ⟨h, hhistory, hentries⟩ := reading?_replay_eq_ok_iff.1 (reading?_grows h₂.objects hload)
      refine safe_bind (safe_mapError ?_)
      rw [hname, hkey p hname]
      refine safe_commit hno (isEncoded_payload t a) hhistory hentries fun w₃ h₃ _ c hreplay => ?_
      exact safe_repoint h₁.applied hp (h₂.trans h₃) hload ha hreplay
        fun q hq => hrespond ⟨t, c, q⟩ a ha hq

/-! ## Reading -/

/-- An outcome that is seen at some time since the start is finished. -/
lemma finished_of_observe {since cs : List Change} {e : Effect}
    {o : Except DatabaseError Response} (hsince : since <+: cs) (hcs : cs <+: w.applied)
    (he : e.change? = none) (h : observe o = Keeping.stored.observe (storedAfter cs) e) :
    Finished since e w o :=
  .inl ⟨cs, hsince, hcs, h, fun hsome => by rw [he] at hsome; cases hsome⟩

/-- Querying a table is safe. -/
theorem safe_querying {answer : Table → Except DatabaseError Query.Answer}
    {respond : Table × Query.Answer → Response}
    {committed : List Change → Memory → Except DatabaseError Response → Prop}
    (hrespond : ∀ x, (respond x).observation = .answer x.2) (w : World) :
    Safe contents committed (Finished w.applied (.query name answer))
      (querying name answer >>= fun x => .ofExcept (.ok (respond x))) w := by
  simp only [querying, bind_assoc]
  refine safe_bind (safe_loadTable ?_ ?_)
  · intro w₁ w₂ e h₁ h₂ hfind w₃ h₃ _
    refine finished_of_observe h₁.applied (h₂.trans h₃).applied rfl ?_
    simp only [observe, Keeping.observe, Keeping.perform, hfind]
    rfl
  · intro w₁ w₂ p t h₁ h₂ _ _ _ hfind
    simp only
    cases ha : answer t with
    | error e =>
      intro w₃ h₃ _
      refine finished_of_observe h₁.applied (h₂.trans h₃).applied rfl ?_
      simp only [observe, Keeping.observe, Keeping.perform, hfind, bind, Except.bind, ha]
      rfl
    | ok a =>
      intro w₃ h₃ _
      refine finished_of_observe h₁.applied (h₂.trans h₃).applied rfl ?_
      simp only [observe, Keeping.observe, Keeping.perform, hfind, bind, Except.bind, ha,
        Except.map, hrespond]
      rfl

/-- The registration of a name is the one of the table of that name. -/
lemma table_of_pointer? {p : Pointer} (hvalid : w.IsValid contents)
    (hp : w.memory.registry.pointer? name = some p) : p.table = name := by
  rcases hvalid.registered name with ⟨-, hnone⟩ | ⟨-, q, -, hq, hqname, -⟩
  · exact absurd (hp.symm.trans hnone) (Option.some_ne_none p)
  · rw [Option.some.inj (hp.symm.trans hq), hqname]

/-- Looking a registration up is safe. -/
theorem safe_pointer {committed : List Change → Memory → Except DatabaseError Response → Prop}
    (w : World) : Safe contents committed (Finished w.applied (.pointer name))
      (do return .pointer (← pointer name)) w := by
  simp only [pointer, bind_assoc]
  refine safe_lookup fun w₁ h₁ hvalid₁ => ?_
  have hfound := contains_storedAfter hvalid₁ name
  cases hp : w₁.memory.registry.pointer? name with
  | none =>
    rw [hp] at hfound
    intro w₂ h₂ _
    refine finished_of_observe h₁.applied h₂.applied rfl ?_
    simp [observe, Keeping.observe, Keeping.perform, hfound, Except.map]
  | some p =>
    rw [hp] at hfound
    intro w₂ h₂ _
    refine finished_of_observe h₁.applied h₂.applied rfl ?_
    simp [observe, Keeping.observe, Keeping.perform, hfound, Except.map,
      table_of_pointer? hvalid₁ hp, Response.observation]

/-- The registered names are those of the tables, in order. -/
lemma names_list (hvalid : w.IsValid contents) :
    w.memory.registry.list.map (·.table) = (storedAfter w.applied).keys := by
  have hnames : w.memory.registry.list.map (·.table) = w.memory.registry.pointers.keys := by
    rw [Registry.list, SortedMap.values, SortedMap.keys, List.map_map]
    refine List.map_congr_left fun e he => ?_
    exact table_of_pointer? hvalid (SortedMap.mem_entries_iff.1 he)
  rw [hnames]
  exact SortedMap.keys_eq_of_contains fun name => (contains_storedAfter hvalid name).symm

/-- Listing the tables is safe. -/
theorem safe_tables {committed : List Change → Memory → Except DatabaseError Response → Prop}
    (w : World) : Safe contents committed (Finished w.applied .list)
      (do return .pointers (← tables)) w := by
  refine safe_list fun w₁ h₁ hvalid₁ w₂ h₂ _ => ?_
  refine finished_of_observe h₁.applied h₂.applied rfl ?_
  simp only [observe, Keeping.observe, Keeping.perform, Except.map, Response.observation,
    names_list hvalid₁]

/-- The procedure of every effect is safe. -/
theorem Implements.safe {p : Procedure DatabaseError Response} {e : Effect} (h : Implements p e)
    (hno : NoCollision contents) (w : World) :
    Safe contents (Committed contents e) (Finished w.applied e) p w := by
  cases h with
  | fail e =>
    intro w₁ h₁ _
    exact finished_of_observe (List.prefix_refl _) h₁.applied rfl rfl
  | create hrespond => exact safe_creating hno hrespond w
  | alter hkey hrespond => exact safe_altering hno hkey hrespond w
  | query hrespond => exact safe_querying hrespond w
  | pointer name => exact safe_pointer w
  | list => exact safe_tables w

end ProvenTables.Database
