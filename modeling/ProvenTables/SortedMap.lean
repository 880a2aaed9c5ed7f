/-!
# Sorted maps

Finite maps from strings, kept as a list of entries in strictly increasing key order, so that two
maps with the same bindings are equal and a walk over the entries meets the keys in byte order.
-/

namespace ProvenTables

/-- A finite map from strings: its entries in strictly increasing key order. -/
structure SortedMap (α : Type) where
  entries : List (String × α)
  sorted : entries.Pairwise (fun a b => a.1 < b.1)

namespace SortedMap

variable {α β : Type}

/-- Binds `k` to `v` in a sorted list of entries, replacing an earlier binding. -/
def insertEntry (k : String) (v : α) : List (String × α) → List (String × α)
  | [] => [(k, v)]
  | e :: rest =>
    if k < e.1 then (k, v) :: e :: rest
    else if k = e.1 then (k, v) :: rest
    else e :: insertEntry k v rest

/-- The first binding of `k` in a list of entries. -/
def lookup? (k : String) : List (String × α) → Option α
  | [] => none
  | e :: rest => if e.1 = k then some e.2 else lookup? k rest

/-- The sorted entries of a list of bindings, of which the last for each key stays. -/
def sortEntries (es : List (String × α)) : List (String × α) :=
  es.foldl (fun m e => insertEntry e.1 e.2 m) []

/-- Inserting an entry adds no other entry. -/
theorem mem_insertEntry {k : String} {v : α} {es : List (String × α)} {e : String × α}
    (h : e ∈ insertEntry k v es) : e = (k, v) ∨ e ∈ es := by
  induction es with
  | nil => simpa [insertEntry] using h
  | cons d rest ih =>
    simp only [insertEntry] at h
    split at h
    · simpa using h
    · split at h
      · rcases List.mem_cons.1 h with h | h
        · exact .inl h
        · exact .inr (List.mem_cons_of_mem _ h)
      · rcases List.mem_cons.1 h with h | h
        · exact .inr (h ▸ List.mem_cons_self)
        · exact (ih h).imp id (List.mem_cons_of_mem _)

/-- Inserting an entry keeps the keys in order. -/
theorem insertEntry_sorted {k : String} {v : α} {es : List (String × α)}
    (h : es.Pairwise (fun a b => a.1 < b.1)) :
    (insertEntry k v es).Pairwise (fun a b => a.1 < b.1) := by
  induction es with
  | nil => simp [insertEntry]
  | cons d rest ih =>
    have hd := List.pairwise_cons.1 h
    simp only [insertEntry]
    split
    · rename_i hlt
      refine List.pairwise_cons.2 ⟨fun e he => ?_, h⟩
      rcases List.mem_cons.1 he with rfl | he
      · exact hlt
      · exact String.lt_trans hlt (hd.1 e he)
    · split
      · rename_i heq
        exact List.pairwise_cons.2 ⟨fun e he => heq ▸ hd.1 e he, hd.2⟩
      · rename_i hlt hne
        refine List.pairwise_cons.2 ⟨fun e he => ?_, ih hd.2⟩
        rcases mem_insertEntry he with rfl | he
        · rcases String.le_total (a := d.1) (b := k) with hle | hle
          · exact String.not_le.1 fun hge => hne (String.le_antisymm hge hle)
          · exact absurd (String.not_le.1 fun hge => hne (String.le_antisymm hle hge)) hlt
        · exact hd.1 e he

/-- The keys of sorted entries are in order. -/
theorem sortEntries_sorted (es : List (String × α)) :
    (sortEntries es).Pairwise (fun a b => a.1 < b.1) := by
  have step : ∀ (l m : List (String × α)), m.Pairwise (fun a b => a.1 < b.1) →
      (l.foldl (fun m e => insertEntry e.1 e.2 m) m).Pairwise (fun a b => a.1 < b.1) := by
    intro l
    induction l with
    | nil => exact fun _ h => h
    | cons e l ih => exact fun m h => ih _ (insertEntry_sorted h)
  exact step es [] .nil

/-- After an insertion the key has the new value, and every other key has what it had. -/
theorem lookup?_insertEntry (k q : String) (v : α) (es : List (String × α)) :
    lookup? q (insertEntry k v es) = if k = q then some v else lookup? q es := by
  induction es with
  | nil => simp [insertEntry, lookup?]
  | cons d rest ih =>
    simp only [insertEntry]
    split
    · simp [lookup?]
    · split
      · rename_i h
        subst h
        by_cases h : d.1 = q <;> simp [lookup?, h]
      · rename_i h
        simp only [lookup?, ih]
        by_cases hd : d.1 = q
        · have : k ≠ q := fun hk => h (hk.trans hd.symm)
          simp [hd, this]
        · simp [hd]

/-- The map without entries. -/
def empty : SortedMap α := ⟨[], .nil⟩

/-- Without other information a map is empty. -/
instance : Inhabited (SortedMap α) := ⟨empty⟩

/-- The empty map can be written as the empty collection. -/
instance : EmptyCollection (SortedMap α) := ⟨empty⟩

/-- The map with a value bound to a key, whose old value is dropped. -/
def insert (m : SortedMap α) (k : String) (v : α) : SortedMap α :=
  ⟨insertEntry k v m.entries, insertEntry_sorted m.sorted⟩

/-- The value that is bound to a key, if there is one. -/
def get? (m : SortedMap α) (k : String) : Option α := lookup? k m.entries

/-- Whether a value is bound to a key. -/
def contains (m : SortedMap α) (k : String) : Bool := (m.get? k).isSome

/-- The map of a list of bindings, of which the last for each key stays. -/
def ofList (es : List (String × α)) : SortedMap α := ⟨sortEntries es, sortEntries_sorted es⟩

/-- The values in the order of their keys. -/
def values (m : SortedMap α) : List α := m.entries.map (·.2)

/-- The keys in their order. -/
def keys (m : SortedMap α) : List String := m.entries.map (·.1)

/-- The number of entries. -/
def size (m : SortedMap α) : Nat := m.entries.length

/-- The map with a function applied to every value. -/
def map (f : α → β) (m : SortedMap α) : SortedMap β :=
  ⟨m.entries.map (fun e => (e.1, f e.2)), List.pairwise_map.2 m.sorted⟩

/-- The bindings of `m` with those of `n` laid over them. -/
def overlay (m n : SortedMap α) : SortedMap α :=
  n.entries.foldl (fun acc e => acc.insert e.1 e.2) m

/-- Maps with the same entries are the same. -/
@[ext]
theorem ext_entries {m n : SortedMap α} (h : m.entries = n.entries) : m = n := by
  cases m; cases n; cases h; rfl

/-- The empty map binds no key. -/
@[simp]
theorem get?_empty (k : String) : (empty : SortedMap α).get? k = none := rfl

/-- After an insertion the key has the new value, and every other key has what it had. -/
@[simp]
theorem get?_insert (m : SortedMap α) (k q : String) (v : α) :
    (m.insert k v).get? q = if k = q then some v else m.get? q :=
  lookup?_insertEntry k q v m.entries

/-- Two maps are compared by their entries. -/
instance [DecidableEq α] : DecidableEq (SortedMap α) := fun m n =>
  if h : m.entries = n.entries then .isTrue (ext_entries h)
  else .isFalse fun e => h (e ▸ rfl)

end SortedMap

end ProvenTables
