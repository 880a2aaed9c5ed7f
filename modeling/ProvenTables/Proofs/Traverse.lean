import Mathlib.Tactic

/-!
# Work on the items of a list

What a function that may fail gives on all items of a list.
-/

namespace ProvenTables

variable {α β ε : Type}

/-- If every item has a result then so has the list. -/
lemma mapM_eq_pure {m : Type → Type} [Monad m] [LawfulMonad m] {f : α → m β} {g : α → β}
    {xs : List α} (h : ∀ x ∈ xs, f x = pure (g x)) : xs.mapM f = pure (xs.map g) := by
  induction xs with
  | nil => rfl
  | cons x xs ih =>
    rw [List.mapM_cons, h x List.mem_cons_self, ih fun y hy => h y (List.mem_cons_of_mem _ hy)]
    simp

/-- Items that are read back from what they are written as make a list that is read back. -/
lemma mapM_map_eq_pure {m : Type → Type} [Monad m] [LawfulMonad m] {f : β → m α} {g : α → β}
    {xs : List α} (h : ∀ x ∈ xs, f (g x) = pure x) : (xs.map g).mapM f = pure xs := by
  rw [List.mapM_map]
  exact (mapM_eq_pure h).trans (by rw [List.map_id'])

/-- A function that gives the elements back gives the list back. -/
lemma mapM_map_eq_ok {f : β → Except ε α} {g : α → β} {xs : List α}
    (h : ∀ x ∈ xs, f (g x) = .ok x) : (xs.map g).mapM f = .ok xs :=
  mapM_map_eq_pure h

/-- A partial function that gives the elements back gives the list back. -/
lemma mapM_map_eq_some {f : β → Option α} {g : α → β} {xs : List α}
    (h : ∀ x ∈ xs, f (g x) = some x) : (xs.map g).mapM f = some xs :=
  mapM_map_eq_pure h

/-- A list has results if and only if its items have them. -/
lemma mapM_eq_ok_iff {f : α → Except ε β} {xs : List α} {ys : List β} :
    xs.mapM f = .ok ys ↔ List.Forall₂ (fun x y => f x = .ok y) xs ys := by
  induction xs generalizing ys with
  | nil =>
    rw [List.mapM_nil, List.forall₂_nil_left_iff]
    constructor
    · intro h
      cases h
      rfl
    · rintro rfl
      rfl
  | cons x xs ih =>
    rw [List.mapM_cons, List.forall₂_cons_left_iff]
    constructor
    · intro h
      cases hx : f x with
      | error e => rw [hx] at h; cases h
      | ok y =>
        cases hxs : xs.mapM f with
        | error e => rw [hx, hxs] at h; cases h
        | ok ys =>
          rw [hx, hxs] at h
          cases h
          exact ⟨y, ys, rfl, ih.1 hxs, rfl⟩
    · rintro ⟨y, ys, hy, hys, rfl⟩
      rw [hy, ih.2 hys]
      rfl

/-- Where two lists are related element by element, every element of each has a partner in the other. -/
lemma exists_of_forall₂ {r : α → β → Prop} {xs : List α} {ys : List β} (h : List.Forall₂ r xs ys) :
    (∀ x ∈ xs, ∃ y ∈ ys, r x y) ∧ ∀ y ∈ ys, ∃ x ∈ xs, r x y := by
  induction h with
  | nil => simp
  | @cons x y xs ys hxy _ ih =>
    constructor
    · intro z hz
      rcases List.mem_cons.1 hz with rfl | hz
      · exact ⟨y, List.mem_cons_self, hxy⟩
      · obtain ⟨w, hw, hzw⟩ := ih.1 z hz
        exact ⟨w, List.mem_cons_of_mem _ hw, hzw⟩
    · intro w hw
      rcases List.mem_cons.1 hw with rfl | hw
      · exact ⟨x, List.mem_cons_self, hxy⟩
      · obtain ⟨z, hz, hzw⟩ := ih.2 w hw
        exact ⟨z, List.mem_cons_of_mem _ hz, hzw⟩

/-- The partner of an element is at the same position. -/
lemma exists_getElem?_of_forall₂ {r : α → β → Prop} {xs : List α} {ys : List β} (h : List.Forall₂ r xs ys)
    {k : ℕ} {x : α} (hx : xs[k]? = some x) : ∃ y, ys[k]? = some y ∧ r x y := by
  induction h generalizing k with
  | nil => cases hx
  | @cons z y xs ys hzy _ ih =>
    cases k with
    | zero =>
      cases hx
      exact ⟨y, rfl, hzy⟩
    | succ k => exact ih hx

/-- Every result of a traversal comes from an element, and every element has its result. -/
lemma exists_of_mapM_ok {f : α → Except ε β} {xs : List α} {ys : List β} (h : xs.mapM f = .ok ys) :
    (∀ x ∈ xs, ∃ y ∈ ys, f x = .ok y) ∧ ∀ y ∈ ys, ∃ x ∈ xs, f x = .ok y :=
  exists_of_forall₂ (mapM_eq_ok_iff.1 h)

/-- A list has results if and only if each of its items has one. -/
lemma exists_mapM_ok_iff {f : α → Except ε β} {xs : List α} :
    (∃ ys, xs.mapM f = .ok ys) ↔ ∀ x ∈ xs, ∃ y, f x = .ok y := by
  constructor
  · rintro ⟨ys, hys⟩ x hx
    obtain ⟨y, -, hy⟩ := (exists_of_mapM_ok hys).1 x hx
    exact ⟨y, hy⟩
  · intro h
    induction xs with
    | nil => exact ⟨[], rfl⟩
    | cons x xs ih =>
      obtain ⟨⟨y, hy⟩, hxs⟩ := List.forall_mem_cons.1 h
      obtain ⟨ys, hys⟩ := ih hxs
      exact ⟨y :: ys, mapM_eq_ok_iff.2 (.cons hy (mapM_eq_ok_iff.1 hys))⟩

/-- If items are read back from what they are written as under a condition, then so is the list. -/
lemma mapM_map_eq_ok_iff {f : β → Except ε α} {g : α → β} {P : α → Prop} {xs ys : List α}
    (h : ∀ x ∈ xs, ∀ y, f (g x) = .ok y ↔ P x ∧ y = x) :
    (xs.map g).mapM f = .ok ys ↔ (∀ x ∈ xs, P x) ∧ ys = xs := by
  constructor
  · intro hys
    have hP : ∀ x ∈ xs, P x := fun x hx => by
      obtain ⟨y, -, hy⟩ := (exists_of_mapM_ok hys).1 (g x) (List.mem_map_of_mem hx)
      exact ((h x hx y).1 hy).1
    have hxs := mapM_map_eq_ok fun x hx => (h x hx x).2 ⟨hP x hx, rfl⟩
    rw [hys] at hxs
    exact ⟨hP, Except.ok.inj hxs⟩
  · rintro ⟨hP, rfl⟩
    exact mapM_map_eq_ok fun x hx => (h x hx x).2 ⟨hP x hx, rfl⟩

/-- The results of a traversal are related to the elements one by one. -/
lemma forall₂_of_mapM_some {f : α → Option β} {xs : List α} {ys : List β}
    (h : xs.mapM f = some ys) : List.Forall₂ (fun x y => f x = some y) xs ys := by
  induction xs generalizing ys with
  | nil =>
    cases h
    exact .nil
  | cons x xs ih =>
    simp only [List.mapM_cons, bind_pure_comp, Option.bind_eq_bind, Option.bind_eq_some_iff,
      Option.map_eq_map, Option.map_eq_some_iff] at h
    obtain ⟨y, hy, zs, hzs, rfl⟩ := h
    exact .cons hy (ih hzs)

/-- A traversal gives results if and only if they are those of the elements one by one. -/
lemma mapM_eq_some_iff {f : α → Option β} {xs : List α} {ys : List β} :
    xs.mapM f = some ys ↔ List.Forall₂ (fun x y => f x = some y) xs ys := by
  refine ⟨forall₂_of_mapM_some, fun h => ?_⟩
  induction h with
  | nil => rfl
  | cons hxy _ ih =>
    rw [List.mapM_cons, hxy, ih]
    rfl

/-- Every result of a traversal comes from an element. -/
lemma exists_of_mapM_some {f : α → Option β} {xs : List α} {ys : List β}
    (h : xs.mapM f = some ys) : ∀ y ∈ ys, ∃ x ∈ xs, f x = some y :=
  (exists_of_forall₂ (forall₂_of_mapM_some h)).2

/-- A traversal gives results if every element has one. -/
lemma exists_mapM_some {f : α → Option β} {xs : List α} (h : ∀ x ∈ xs, ∃ y, f x = some y) :
    ∃ ys, xs.mapM f = some ys := by
  induction xs with
  | nil => exact ⟨[], rfl⟩
  | cons x xs ih =>
    obtain ⟨hx, hxs⟩ := List.forall_mem_cons.1 h
    obtain ⟨y, hy⟩ := hx
    obtain ⟨ys, hys⟩ := ih hxs
    exact ⟨y :: ys, by rw [List.mapM_cons, hy, hys]; rfl⟩

/-- The error of a list is that of an item. -/
lemma exists_mem_of_mapM_error {f : α → Except ε β} {xs : List α} {e : ε}
    (h : xs.mapM f = .error e) : ∃ x ∈ xs, f x = .error e := by
  induction xs with
  | nil => cases h
  | cons x xs ih =>
    rw [List.mapM_cons] at h
    cases hx : f x with
    | error d =>
      rw [hx] at h
      cases h
      exact ⟨x, List.mem_cons_self, hx⟩
    | ok y =>
      rw [hx] at h
      cases hxs : xs.mapM f with
      | error d =>
        rw [hxs] at h
        cases h
        obtain ⟨z, hz, hze⟩ := ih hxs
        exact ⟨z, List.mem_cons_of_mem _ hz, hze⟩
      | ok ys => rw [hxs] at h; cases h

/-- Two computations in a row succeed if and only if both do. -/
lemma bind_eq_ok_iff {o : Except ε α} {f : α → Except ε β} {b : β} :
    (o >>= f) = .ok b ↔ ∃ a, o = .ok a ∧ f a = .ok b := by
  cases o with
  | error e => simp [bind, Except.bind]
  | ok a => simp [bind, Except.bind]

/-- A computation with a function applied to its result succeeds if and only if it does. -/
lemma map_eq_ok_iff {f : α → β} {o : Except ε α} {b : β} :
    f <$> o = .ok b ↔ ∃ a, o = .ok a ∧ f a = b := by
  cases o <;> simp [Functor.map, Except.map]

/-- A function on the result leaves the errors as they are. -/
lemma map_eq_error_iff {f : α → β} {o : Except ε α} {e : ε} : f <$> o = .error e ↔ o = .error e := by
  cases o <;> simp [Functor.map, Except.map]

/-- A function on the result does not change whether there is one. -/
lemma isOk_map (f : α → β) (o : Except ε α) : (o.map f).isOk = o.isOk := by
  cases o <;> rfl

/-- The result as an option is there if and only if the computation succeeds. -/
lemma toOption_eq_some_iff {o : Except ε α} {a : α} : o.toOption = some a ↔ o = .ok a := by
  cases o <;> simp [Except.toOption]

/-- A function on the errors leaves the results as they are. -/
lemma mapError_eq_ok_iff {ε' : Type} {g : ε → ε'} {o : Except ε α} {a : α} :
    o.mapError g = .ok a ↔ o = .ok a := by
  cases o <;> simp [Except.mapError]

end ProvenTables
