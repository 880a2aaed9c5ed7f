import ProvenTables.Proofs.Json.RoundTrip

/-!
# Values that are alike

Values are alike if one becomes the other by moving fields of objects past fields of other names, and by
leaving out fields that have a later one of the same name. The normal form decides it (`alike_iff`), and so
does the canonical text of values that can be read (`canonical_eq_iff`).
-/

namespace ProvenTables

namespace SortedMap

variable {α : Type} {es fs : List (String × α)} {k l : String} {v w : α}

/-- Only the last bindings count. -/
lemma sortEntries_congr (h : ∀ q, lookup? q es.reverse = lookup? q fs.reverse) :
    sortEntries es = sortEntries fs :=
  congrArg entries (ext_get? (m := ofList es) (n := ofList fs) fun q => by
    rw [get?_ofList, get?_ofList, h])

/-- Two entries with different keys can be swapped before they are sorted. -/
lemma sortEntries_swap (hkl : k ≠ l) :
    sortEntries (es ++ (k, v) :: (l, w) :: fs) = sortEntries (es ++ (l, w) :: (k, v) :: fs) := by
  refine sortEntries_congr fun q => ?_
  simp only [List.reverse_append, List.reverse_cons, List.append_assoc, lookup?_append, lookup?]
  by_cases hk : k = q
  · have hl : l ≠ q := fun hl => hkl (hk.trans hl.symm)
    simp [hk, hl]
  · simp [hk]

/-- The key of an entry is found. -/
lemma isSome_lookup?_of_mem (h : (k, v) ∈ es) : (lookup? k es).isSome = true := by
  induction es with
  | nil => cases h
  | cons e es ih =>
    rw [lookup?]
    split
    · rfl
    · rename_i hne
      refine ih ((List.mem_cons.1 h).resolve_left ?_)
      rintro rfl
      exact hne rfl

/-- An entry that a later one with its key replaces can be left out. -/
lemma sortEntries_overwritten (h : (k, w) ∈ fs) :
    sortEntries (es ++ (k, v) :: fs) = sortEntries (es ++ fs) := by
  refine sortEntries_congr fun q => ?_
  simp only [List.reverse_append, List.reverse_cons, List.append_assoc, lookup?_append, lookup?]
  by_cases hk : k = q
  · subst hk
    obtain ⟨u, hu⟩ := Option.isSome_iff_exists.1 (isSome_lookup?_of_mem (List.mem_reverse.2 h))
    simp [hu]
  · simp [hk]

end SortedMap

namespace Json

/-- Values that differ in no more than the order of the fields of objects and in fields that have a later
one of the same name behind them. -/
inductive Alike : Json → Json → Prop
  | refl (v) : Alike v v
  | symm {v w} : Alike v w → Alike w v
  | trans {u v w} : Alike u v → Alike v w → Alike u w
  | item {vs ws v w} : Alike v w → Alike (arr (vs ++ v :: ws)) (arr (vs ++ w :: ws))
  | field {fs gs k v w} : Alike v w → Alike (obj (fs ++ (k, v) :: gs)) (obj (fs ++ (k, w) :: gs))
  | swap {fs gs k l v w} : k ≠ l →
    Alike (obj (fs ++ (k, v) :: (l, w) :: gs)) (obj (fs ++ (l, w) :: (k, v) :: gs))
  | overwritten {fs gs k v w} : (k, w) ∈ gs → Alike (obj (fs ++ (k, v) :: gs)) (obj (fs ++ gs))

variable {v w : Json}

/-- Values that are alike have one normal form. -/
theorem Alike.normalize_eq (h : Alike v w) : v.normalize = w.normalize := by
  induction h with
  | refl => rfl
  | symm _ ih => exact ih.symm
  | trans _ _ ih₁ ih₂ => exact ih₁.trans ih₂
  | item _ ih => simp only [normalize, normalizeItems_eq_map, List.map_append, List.map_cons, ih]
  | field _ ih => simp only [normalize, normalizeFields_eq_map, List.map_append, List.map_cons, ih]
  | swap hkl =>
    simp only [normalize, normalizeFields_eq_map, List.map_append, List.map_cons]
    rw [SortedMap.sortEntries_swap hkl]
  | overwritten hmem =>
    simp only [normalize, normalizeFields_eq_map, List.map_append, List.map_cons]
    rw [SortedMap.sortEntries_overwritten (List.mem_map_of_mem (f := fun f => (f.1, normalize f.2)) hmem)]

/-! ## Sorting by steps -/

/-- A field moves to the front of fields of other names. -/
lemma alike_move (pre : List (String × Json)) {es post : List (String × Json)} {k : String} (h : ∀ e ∈ es, e.1 ≠ k) :
    Alike (obj (pre ++ (es ++ (k, v) :: post))) (obj (pre ++ (k, v) :: (es ++ post))) := by
  induction es generalizing pre with
  | nil => exact .refl _
  | cons e es ih =>
    obtain ⟨he, hes⟩ := List.forall_mem_cons.1 h
    have hrest := ih (pre ++ [e]) hes
    simp only [List.append_assoc, List.singleton_append] at hrest
    exact hrest.trans (.swap he)

/-- A field behind sorted ones moves to its place. -/
lemma alike_insertEntry (pre : List (String × Json)) {es post : List (String × Json)} {k : String}
    (hes : es.Pairwise fun a b => a.1 < b.1) :
    Alike (obj (pre ++ (es ++ (k, v) :: post))) (obj (pre ++ (SortedMap.insertEntry k v es ++ post))) := by
  induction es generalizing pre with
  | nil => exact .refl _
  | cons e es ih =>
    obtain ⟨he, hrest⟩ := List.pairwise_cons.1 hes
    have hne : ∀ {q}, q < e.1 ∨ q = e.1 → ∀ d ∈ es, d.1 ≠ q := by
      rintro q hq d hd rfl
      rcases hq with hq | hq
      · exact String.lt_asymm hq (he d hd)
      · exact absurd (he d hd) (hq ▸ String.lt_irrefl _)
    rw [SortedMap.insertEntry]
    split
    · rename_i hlt
      refine alike_move pre (List.forall_mem_cons.2 ⟨?_, hne (.inl hlt)⟩)
      rintro heq
      exact String.lt_irrefl _ (heq ▸ hlt)
    · split
      · rename_i heq
        have hdrop : Alike (obj (pre ++ (e :: es ++ (k, v) :: post))) (obj (pre ++ (es ++ (k, v) :: post))) := by
          have he : e = (k, e.2) := Prod.ext heq.symm rfl
          rw [he]
          exact .overwritten (List.mem_append_right _ List.mem_cons_self)
        exact hdrop.trans (alike_move pre (hne (.inr heq)))
      · have hstep := ih (pre ++ [e]) hrest
        simp only [List.append_assoc, List.singleton_append] at hstep
        exact hstep

/-- An object is alike to the one with sorted fields. -/
lemma alike_sortEntries (fs : List (String × Json)) : Alike (obj fs) (obj (SortedMap.sortEntries fs)) := by
  have hfold : ∀ (l m : List (String × Json)), (m.Pairwise fun a b => a.1 < b.1) →
      Alike (obj (m ++ l)) (obj (l.foldl (fun m e => SortedMap.insertEntry e.1 e.2 m) m)) := by
    intro l
    induction l with
    | nil =>
      intro m _
      rw [List.append_nil]
      exact .refl _
    | cons e l ih =>
      intro m hm
      exact (alike_insertEntry [] hm).trans (ih _ (SortedMap.insertEntry_sorted hm))
  exact hfold fs [] .nil

mutual

/-- A document is alike to its normal form. -/
lemma alike_normalize : ∀ v : Json, Alike v v.normalize
  | .null | .bool _ | .num _ | .str _ => .refl _
  | .arr items => by
    rw [normalize]
    exact alike_normalizeItems items []
  | .obj fields => by
    rw [normalize]
    exact (alike_normalizeFields fields []).trans (alike_sortEntries _)

/-- A list is alike to the one with normalised items. -/
lemma alike_normalizeItems : ∀ vs pre : List Json, Alike (arr (pre ++ vs)) (arr (pre ++ normalizeItems vs))
  | [], _ => .refl _
  | v :: vs, pre => by
    have hrest := alike_normalizeItems vs (pre ++ [v.normalize])
    simp only [List.append_assoc, List.singleton_append] at hrest
    exact (Alike.item (alike_normalize v)).trans hrest

/-- An object is alike to the one with normalised fields. -/
lemma alike_normalizeFields : ∀ fs pre : List (String × Json),
    Alike (obj (pre ++ fs)) (obj (pre ++ normalizeFields fs))
  | [], _ => .refl _
  | (k, v) :: fs, pre => by
    have hrest := alike_normalizeFields fs (pre ++ [(k, v.normalize)])
    simp only [List.append_assoc, List.singleton_append] at hrest
    exact (Alike.field (alike_normalize v)).trans hrest

end

/-- Values are alike if and only if they have one normal form. -/
theorem alike_iff : Alike v w ↔ v.normalize = w.normalize :=
  ⟨Alike.normalize_eq, fun h => (alike_normalize v).trans (h ▸ (alike_normalize w).symm)⟩

/-- Values that can be read have one canonical text if and only if they are alike. -/
theorem canonical_eq_iff (hv : v.WellFormed) (hw : w.WellFormed) (hdv : v.depth ≤ maxDepth)
    (hdw : w.depth ≤ maxDepth) : v.canonical = w.canonical ↔ Alike v w := by
  rw [alike_iff]
  constructor
  · intro h
    have hread := parse?_canonical hv hdv
    rw [h, parse?_canonical hw hdw] at hread
    exact (Option.some.inj hread).symm
  · intro h
    rw [canonical, h, canonical]

end Json

end ProvenTables
