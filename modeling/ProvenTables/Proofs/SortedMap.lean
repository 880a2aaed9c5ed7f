import Mathlib.Tactic
import ProvenTables.SortedMap

/-!
# Laws of sorted maps

A sorted map is determined by what it binds, and sorting entries that are sorted changes nothing.
-/

namespace ProvenTables.SortedMap

variable {α β : Type}

/-! ## Entries -/

/-- An entry above all entries is put behind them. -/
lemma insertEntry_append {k : String} {v : α} {es : List (String × α)} (h : ∀ e ∈ es, e.1 < k) :
    insertEntry k v es = es ++ [(k, v)] := by
  induction es with
  | nil => rfl
  | cons e es ih =>
    have he := h e List.mem_cons_self
    have hne : k ≠ e.1 := fun hk => absurd he (hk ▸ String.lt_irrefl _)
    rw [insertEntry, if_neg (String.lt_asymm he), if_neg hne,
      ih fun d hd => h d (List.mem_cons_of_mem _ hd), List.cons_append]

/-- Inserting sorted entries one by one keeps their list. -/
lemma foldl_insertEntry {es fs : List (String × α)}
    (h : (es ++ fs).Pairwise (fun a b => a.1 < b.1)) :
    fs.foldl (fun m e => insertEntry e.1 e.2 m) es = es ++ fs := by
  induction fs generalizing es with
  | nil => exact (List.append_nil es).symm
  | cons f fs ih =>
    have hlt : ∀ e ∈ es, e.1 < f.1 :=
      fun e he => (List.pairwise_append.1 h).2.2 e he f List.mem_cons_self
    rw [List.foldl_cons, insertEntry_append hlt, ih (by simpa using h), List.append_assoc]
    rfl

/-- Entries that are sorted stay as they are. -/
lemma sortEntries_of_sorted {es : List (String × α)}
    (h : es.Pairwise (fun a b => a.1 < b.1)) : sortEntries es = es :=
  foldl_insertEntry h

/-- Sorting adds no entry. -/
lemma mem_of_mem_sortEntries {es : List (String × α)} {e : String × α}
    (h : e ∈ sortEntries es) : e ∈ es := by
  have step : ∀ (l m : List (String × α)),
      e ∈ l.foldl (fun m e => insertEntry e.1 e.2 m) m → e ∈ m ∨ e ∈ l := by
    intro l
    induction l with
    | nil => exact fun m hm => .inl hm
    | cons d l ih =>
      intro m hm
      rcases ih _ hm with hm | hl
      · rcases mem_insertEntry hm with rfl | hm
        · exact .inr List.mem_cons_self
        · exact .inl hm
      · exact .inr (List.mem_cons_of_mem _ hl)
  exact (step es [] h).resolve_left List.not_mem_nil

/-- Entries can be sorted before or after a function is applied to their values. -/
lemma sortEntries_map (f : α → β) (es : List (String × α)) :
    sortEntries (es.map fun e => (e.1, f e.2)) = (sortEntries es).map fun e => (e.1, f e.2) := by
  have hinsert : ∀ (k : String) (v : α) (m : List (String × α)),
      insertEntry k (f v) (m.map fun e => (e.1, f e.2)) =
        (insertEntry k v m).map fun e => (e.1, f e.2) := by
    intro k v m
    induction m with
    | nil => rfl
    | cons d m ih =>
      simp only [List.map_cons, insertEntry]
      split
      · rfl
      · split
        · rfl
        · rw [List.map_cons, ih]
  have step : ∀ (l m : List (String × α)),
      (l.map fun e => (e.1, f e.2)).foldl (fun m e => insertEntry e.1 e.2 m)
        (m.map fun e => (e.1, f e.2)) =
      (l.foldl (fun m e => insertEntry e.1 e.2 m) m).map fun e => (e.1, f e.2) := by
    intro l
    induction l with
    | nil => exact fun m => rfl
    | cons d l ih => exact fun m => by rw [List.map_cons, List.foldl_cons, hinsert, ih]; rfl
  exact step es []

/-! ## Bindings -/

/-- In sorted entries looking a key up finds exactly the entry with the key. -/
lemma lookup?_eq_some_iff {es : List (String × α)} (h : es.Pairwise (fun a b => a.1 < b.1))
    {k : String} {v : α} : lookup? k es = some v ↔ (k, v) ∈ es := by
  induction es with
  | nil => simp [lookup?]
  | cons e es ih =>
    have hd := List.pairwise_cons.1 h
    rw [lookup?, List.mem_cons]
    split
    · rename_i hk
      subst hk
      have hout : (e.1, v) ∉ es := fun hm => absurd (hd.1 _ hm) (String.lt_irrefl _)
      simp [hout, Prod.ext_iff, eq_comm]
    · rename_i hk
      have hne : (k, v) ≠ e := fun he => hk (congrArg Prod.fst he).symm
      simp [hne, ih hd.2]

/-- The entries are the keys with the values that are bound to them. -/
lemma mem_entries_iff {m : SortedMap α} {k : String} {v : α} :
    (k, v) ∈ m.entries ↔ m.get? k = some v :=
  (lookup?_eq_some_iff m.sorted).symm

/-- Two maps with the same bindings are equal. -/
theorem ext_get? {m n : SortedMap α} (h : ∀ k, m.get? k = n.get? k) : m = n := by
  refine ext_entries (List.Perm.eq_of_pairwise ?_ m.sorted n.sorted ?_)
  · intro a b _ _ hab hba
    exact absurd hab (String.lt_asymm hba)
  · have hnodup : ∀ m : SortedMap α, m.entries.Nodup := fun m =>
      m.sorted.imp fun {a b} (hab : a.1 < b.1) (he : a = b) =>
        absurd hab (he ▸ String.lt_irrefl _)
    refine (List.perm_ext_iff_of_nodup (hnodup m) (hnodup n)).2 fun ⟨k, v⟩ => ?_
    rw [mem_entries_iff, mem_entries_iff, h k]

/-- A map is the one of its entries. -/
@[simp]
lemma ofList_entries (m : SortedMap α) : ofList m.entries = m :=
  ext_entries (sortEntries_of_sorted m.sorted)

/-- Looking a key up goes through a function on the values. -/
lemma lookup?_map (f : α → β) (k : String) (es : List (String × α)) :
    lookup? k (es.map fun e => (e.1, f e.2)) = (lookup? k es).map f := by
  induction es with
  | nil => rfl
  | cons e es ih => rw [List.map_cons, lookup?, lookup?, ih]; split <;> rfl

/-- What a key is bound to goes through a function on the values. -/
@[simp]
lemma get?_map (f : α → β) (m : SortedMap α) (k : String) : (m.map f).get? k = (m.get? k).map f :=
  lookup?_map f k m.entries

/-- An insertion goes through a function on the values. -/
lemma map_insert (f : α → β) (m : SortedMap α) (k : String) (v : α) :
    (m.insert k v).map f = (m.map f).insert k (f v) := by
  refine ext_get? fun q => ?_
  simp only [get?_map, get?_insert]
  split <;> rfl

/-- A function on the values leaves the bound keys as they are. -/
@[simp]
lemma contains_map (f : α → β) (m : SortedMap α) (k : String) :
    (m.map f).contains k = m.contains k := by
  simp [contains]

/-- The keys are in strict order. -/
@[simp]
lemma pairwise_keys (m : SortedMap α) : m.keys.Pairwise (· < ·) := List.pairwise_map.2 m.sorted

/-- A function on the values leaves the keys as they are. -/
lemma keys_map (f : α → β) (m : SortedMap α) : (m.map f).keys = m.keys := by
  simp [keys, map, Function.comp_def]

/-- A key that is not found in the first entries is looked up in the others. -/
lemma lookup?_append (k : String) (es fs : List (String × α)) :
    lookup? k (es ++ fs) = (lookup? k es).or (lookup? k fs) := by
  induction es with
  | nil => rfl
  | cons e es ih => rw [List.cons_append, lookup?, lookup?, ih]; split <;> rfl

/-- The last binding of a key stays. -/
lemma get?_ofList (es : List (String × α)) (k : String) :
    (ofList es).get? k = lookup? k es.reverse := by
  have step : ∀ (l m : List (String × α)),
      lookup? k (l.foldl (fun m e => insertEntry e.1 e.2 m) m) =
        (lookup? k l.reverse).or (lookup? k m) := by
    intro l
    induction l with
    | nil => exact fun m => rfl
    | cons e l ih =>
      intro m
      rw [List.foldl_cons, ih, lookup?_insertEntry, List.reverse_cons, lookup?_append]
      cases lookup? k l.reverse with
      | some v => rfl
      | none => by_cases he : e.1 = k <;> simp [lookup?, he]
  exact (step es []).trans (Option.or_none)

/-- Among entries with different keys every one is found by its key. -/
lemma lookup?_of_nodup {es : List (String × α)} (h : (es.map Prod.fst).Nodup) {k : String} {v : α}
    (hm : (k, v) ∈ es) : lookup? k es = some v := by
  induction es with
  | nil => cases hm
  | cons e es ih =>
    rw [List.map_cons, List.nodup_cons] at h
    rw [lookup?]
    rcases List.mem_cons.1 hm with rfl | hm
    · exact if_pos rfl
    · have hne : e.1 ≠ k := fun he => h.1 (he ▸ List.mem_map_of_mem hm)
      rw [if_neg hne, ih h.2 hm]

/-- In the map of entries with different keys every entry is found by its key. -/
lemma get?_ofList_of_nodup {es : List (String × α)} (h : (es.map Prod.fst).Nodup) {k : String}
    {v : α} (hm : (k, v) ∈ es) : (ofList es).get? k = some v := by
  rw [get?_ofList]
  refine lookup?_of_nodup ?_ (List.mem_reverse.2 hm)
  rw [List.map_reverse, List.nodup_reverse]
  exact h

/-- A later binding of a map that is laid over another wins. -/
lemma get?_overlay (m n : SortedMap α) (k : String) :
    (m.overlay n).get? k = (n.get? k).or (m.get? k) := by
  have step : ∀ (l : List (String × α)) (m : SortedMap α),
      (l.foldl (fun acc e => acc.insert e.1 e.2) m).get? k =
        (lookup? k l.reverse).or (m.get? k) := by
    intro l
    induction l with
    | nil => exact fun m => rfl
    | cons e l ih =>
      intro m
      rw [List.foldl_cons, ih, get?_insert, List.reverse_cons, lookup?_append]
      cases lookup? k l.reverse with
      | some v => rfl
      | none => by_cases he : e.1 = k <;> simp [lookup?, he]
  rw [overlay, step, ← get?_ofList, ofList_entries]

/-- An insertion adds an entry unless the key is bound already. -/
lemma length_insertEntry {k : String} {v : α} {es : List (String × α)}
    (h : es.Pairwise (fun a b => a.1 < b.1)) :
    (insertEntry k v es).length = es.length + if (lookup? k es).isSome then 0 else 1 := by
  induction es with
  | nil => rfl
  | cons e es ih =>
    obtain ⟨hlt, hes⟩ := List.pairwise_cons.1 h
    simp only [insertEntry, lookup?]
    split
    · rename_i hk
      -- every key is above the new one
      have hnone : lookup? k es = none := by
        refine Option.eq_none_iff_forall_ne_some.2 fun w hw => ?_
        exact String.lt_asymm hk (hlt _ ((lookup?_eq_some_iff hes).1 hw))
      have hne : e.1 ≠ k := fun he => String.lt_irrefl _ (he ▸ hk)
      simp [hne, hnone]
    · split
      · rename_i hk
        simp [hk]
      · rename_i hk
        simp only [List.length_cons, ih hes, if_neg (Ne.symm hk), Nat.add_right_comm]

/-- A binding of a new key is one more. -/
lemma size_insert (m : SortedMap α) (k : String) (v : α) :
    (m.insert k v).size = m.size + if m.contains k then 0 else 1 :=
  length_insertEntry m.sorted

/-- Maps that bind the same keys list the same keys. -/
lemma keys_eq_of_contains {m : SortedMap α} {n : SortedMap β}
    (h : ∀ k, m.contains k = n.contains k) : m.keys = n.keys := by
  have hmap : m.map (fun _ => ()) = n.map (fun _ => ()) := by
    refine ext_get? fun k => ?_
    have hk := h k
    simp only [contains] at hk
    rw [get?_map, get?_map]
    cases hm : m.get? k <;> cases hn : n.get? k <;> simp_all
  rw [← keys_map (fun _ => ()) m, hmap, keys_map]

end ProvenTables.SortedMap
