import ProvenTables.Proofs.Json.Spelling
import ProvenTables.Proofs.SortedMap

/-!
# Reading back JSON texts

The canonical text of a value reads back as the normal form of the value, if its numbers are numbers
of JSON and its containers are not nested deeper than a text may have them (`parse?_canonical`). Both this
and that no other values are ever read (`wellFormed_parse?`) are said of the grammar: the reader itself is
opened only where it is shown to accept the spellings of a value.
-/

namespace ProvenTables

/-- An integer of 64 bits or a finite number. -/
def JsonNumber.WellFormed : JsonNumber → Prop
  | .int n => Json.isWord n = true
  | .float x => x.isFinite = true

namespace Json

mutual

/-- Every number is one that JSON has. -/
def WellFormed : Json → Prop
  | num n => n.WellFormed
  | arr items => WellFormedItems items
  | obj fields => WellFormedFields fields
  | _ => True

/-- Every item of a list is well-formed. -/
def WellFormedItems : List Json → Prop
  | [] => True
  | v :: vs => WellFormed v ∧ WellFormedItems vs

/-- The value of every field is well-formed. -/
def WellFormedFields : List (String × Json) → Prop
  | [] => True
  | (_, v) :: fs => WellFormed v ∧ WellFormedFields fs

end

/-! ## Spelled values -/

/-- A number that is spelled is well-formed. -/
lemma SpellsNumber.wellFormed {n : JsonNumber} {a : List Char} (h : SpellsNumber n a) : n.WellFormed := by
  cases h with
  | mk _ _ _ _ hn =>
    simp only [number?] at hn
    rcases ite_eq_iff.1 hn with ⟨hint, hn⟩ | ⟨-, hn⟩
    · cases hn
      exact hint.2.2.1
    · rcases ite_eq_iff.1 hn with ⟨hfinite, hn⟩ | ⟨-, hn⟩
      · cases hn
        exact hfinite
      · cases hn

mutual

/-- Only numbers of JSON have a notation. -/
lemma Spells.wellFormed : ∀ {v : Json} {a : List Char}, Spells v a → v.WellFormed
  | _, _, .null | _, _, .true | _, _, .false | _, _, .str _ => by simp only [WellFormed]
  | _, _, .num hn => by simpa only [WellFormed] using hn.wellFormed
  | _, _, .emptyArr _ | _, _, .emptyObj _ => trivial
  | _, _, .arr _ hv hvs => ⟨hv.wellFormed, hvs.wellFormed⟩
  | _, _, .obj _ _ _ hv hfs => ⟨hv.wellFormed, hfs.wellFormed⟩

/-- Items that are spelled are well-formed. -/
lemma SpellsItems.wellFormed : ∀ {vs : List Json} {b : List Char}, SpellsItems vs b → WellFormedItems vs
  | _, _, .nil _ => trivial
  | _, _, .cons _ _ hv hvs => ⟨hv.wellFormed, hvs.wellFormed⟩

/-- The values of fields that are spelled are well-formed. -/
lemma SpellsFields.wellFormed : ∀ {fs : List (String × Json)} {b : List Char}, SpellsFields fs b →
    WellFormedFields fs
  | _, _, .nil _ => trivial
  | _, _, .cons _ _ _ _ hv hfs => ⟨hv.wellFormed, hfs.wellFormed⟩

end

/-! ## Compact texts -/

/-- The two digits of a number below 256 are read as a code unit. -/
lemma codeUnit?_digitChar {n : ℕ} (h : n < 256) :
    codeUnit? '0' '0' (Nat.digitChar (n / 16)) (Nat.digitChar (n % 16)) = some n := by
  have h0 : Text.hexValue? '0' = some 0 := by decide
  have h1 := Text.hexValue?_digitChar (n / 16) (by omega)
  have h2 := Text.hexValue?_digitChar (n % 16) (by omega)
  simp only [codeUnit?, h0, h1, h2, Option.bind_eq_bind, Option.bind_some, pure]
  congr 1
  omega

/-- The controls that no letter stands for are written with four hexadecimal digits. -/
lemma spells_control {c : Char} (h : c.toNat < 32) :
    SpellsChar c ('\\' :: 'u' :: '0' :: '0' :: Text.hexByte (UInt8.ofNat c.toNat)) := by
  have hlow : (UInt8.ofNat c.toNat).toNat = c.toNat := by
    rw [UInt8.toNat_ofNat']
    omega
  have hunit := SpellsChar.unit (codeUnit?_digitChar (n := c.toNat) (by omega)) (.inl (by omega))
  rw [Char.ofNat_toNat] at hunit
  rwa [Text.hexByte, hlow]

/-- An escaped character spells the character. -/
lemma spells_escapeChar (c : Char) : SpellsChar c (escapeChar c) := by
  unfold escapeChar
  split_ifs with hquote hslash _ _ _ _ _ hcontrol
  any_goals
    subst c
    exact .letter rfl
  · exact spells_control hcontrol
  · exact .plain (by omega) hquote hslash

/-- Characters that are escaped one by one spell the text. -/
lemma spells_flatMap_escapeChar (cs : List Char) : SpellsString cs (cs.flatMap escapeChar) := by
  induction cs with
  | nil => exact .nil
  | cons c cs ih => exact .cons (spells_escapeChar c) ih

/-- A text in quotes spells a name. -/
lemma spells_quote (k : String) : SpellsName k (quote k ++ [':']) := by
  have h := SpellsName.mk (spells_flatMap_escapeChar k.toList) allSpace_nil
  simpa [quote] using h

/-- The text of a number spells the number. -/
lemma spells_render {n : JsonNumber} (hn : n.WellFormed) : SpellsNumber n n.render.toList := by
  have hread : readNumber? (n.render.toList ++ []) = some (n, []) := by
    cases n with
    | int n => exact readNumber?_render_int hn NumberEnds.nil
    | float x => exact readNumber?_render_float hn NumberEnds.nil
  obtain ⟨a, ha, hspells⟩ := spells_of_readNumber? hread
  rw [List.append_nil, List.append_nil] at ha
  exact ha ▸ hspells

mutual

/-- The compact text of a value spells it. -/
lemma spells_chars : ∀ {v : Json}, v.WellFormed → Spells v v.chars
  | .null, _ => .null
  | .bool true, _ => .true
  | .bool false, _ => .false
  | .num _, hv => .num (spells_render (by simpa only [WellFormed] using hv))
  | .str _, _ => .str (spells_flatMap_escapeChar _)
  | .arr [], _ => .emptyArr allSpace_nil
  | .arr (_ :: _), hv => .arr allSpace_nil (spells_chars hv.1) (spells_charsOfItems hv.2)
  | .obj [], _ => .emptyObj allSpace_nil
  | .obj ((k, v) :: fs), hv => by
    have h := Spells.obj allSpace_nil (spells_quote k) allSpace_nil (spells_chars hv.1)
      (spells_charsOfFields hv.2)
    simpa [chars] using h

/-- The characters of the rest of a list spell its items. -/
lemma spells_charsOfItems : ∀ {vs : List Json}, WellFormedItems vs → SpellsItems vs (charsOfItems vs)
  | [], _ => .nil allSpace_nil
  | _ :: _, hvs => .cons allSpace_nil allSpace_nil (spells_chars hvs.1) (spells_charsOfItems hvs.2)

/-- The characters of the rest of an object spell its fields. -/
lemma spells_charsOfFields : ∀ {fs : List (String × Json)}, WellFormedFields fs →
    SpellsFields fs (charsOfFields fs)
  | [], _ => .nil allSpace_nil
  | (k, v) :: fs, hfs => by
    have h := SpellsFields.cons allSpace_nil allSpace_nil (spells_quote k) allSpace_nil
      (spells_chars hfs.1) (spells_charsOfFields hfs.2)
    simpa [charsOfFields] using h

end

/-- The compact text of a value reads back. -/
theorem read?_compact {v : Json} (hv : v.WellFormed) (hd : v.depth ≤ maxDepth) :
    read? v.compact = some v :=
  read?_eq_some_iff.2 ⟨⟨[], v.chars, [], by simp [compact], allSpace_nil, spells_chars hv, allSpace_nil⟩, hd⟩

/-! ## Normal forms -/

/-- The items of a list are normalised one by one. -/
lemma normalizeItems_eq_map (vs : List Json) : normalizeItems vs = vs.map normalize := by
  induction vs with
  | nil => rfl
  | cons v vs ih => rw [normalizeItems, ih, List.map_cons]

/-- The fields of an object are normalised one by one. -/
lemma normalizeFields_eq_map (fs : List (String × Json)) :
    normalizeFields fs = fs.map fun f => (f.1, normalize f.2) := by
  induction fs with
  | nil => rfl
  | cons f fs ih => rw [normalizeFields, ih, List.map_cons]

/-- Items are well-formed if every one of them is. -/
lemma wellFormedItems_iff {vs : List Json} : WellFormedItems vs ↔ ∀ v ∈ vs, v.WellFormed := by
  induction vs with
  | nil => simp [WellFormedItems]
  | cons v vs ih => simp [WellFormedItems, ih]

/-- Fields are well-formed if the value of every one of them is. -/
lemma wellFormedFields_iff {fs : List (String × Json)} :
    WellFormedFields fs ↔ ∀ f ∈ fs, f.2.WellFormed := by
  induction fs with
  | nil => simp [WellFormedFields]
  | cons f fs ih => simp [WellFormedFields, ih]

/-- The depth of items is bounded by a bound on each of them. -/
lemma depthOfItems_le_iff {vs : List Json} {d : ℕ} :
    depthOfItems vs ≤ d ↔ ∀ v ∈ vs, v.depth ≤ d := by
  induction vs with
  | nil => simp [depthOfItems]
  | cons v vs ih => simp [depthOfItems, ih]

/-- The depth of fields is bounded by a bound on each of them. -/
lemma depthOfFields_le_iff {fs : List (String × Json)} {d : ℕ} :
    depthOfFields fs ≤ d ↔ ∀ f ∈ fs, f.2.depth ≤ d := by
  induction fs with
  | nil => simp [depthOfFields]
  | cons f fs ih => simp [depthOfFields, ih]

mutual

/-- The normal form of a well-formed document is well-formed. -/
lemma WellFormed.normalize : ∀ {v : Json}, v.WellFormed → v.normalize.WellFormed
  | .null, h | .bool _, h | .num _, h | .str _, h => h
  | .arr items, h => by
    rw [Json.normalize, WellFormed]
    exact WellFormedItems.normalize (by simpa only [WellFormed] using h)
  | .obj fields, h => by
    rw [Json.normalize, WellFormed, wellFormedFields_iff]
    have hfields : WellFormedFields (normalizeFields fields) :=
      WellFormedFields.normalize (by simpa only [WellFormed] using h)
    exact fun f hf => wellFormedFields_iff.1 hfields f (SortedMap.mem_of_mem_sortEntries hf)

/-- The normal forms of well-formed items are well-formed. -/
lemma WellFormedItems.normalize : ∀ {vs : List Json}, WellFormedItems vs →
    WellFormedItems (normalizeItems vs)
  | [], h => h
  | _ :: _, h => ⟨WellFormed.normalize h.1, WellFormedItems.normalize h.2⟩

/-- The normal forms of well-formed fields are well-formed. -/
lemma WellFormedFields.normalize : ∀ {fs : List (String × Json)}, WellFormedFields fs →
    WellFormedFields (normalizeFields fs)
  | [], h => h
  | (_, _) :: _, h => ⟨WellFormed.normalize h.1, WellFormedFields.normalize h.2⟩

end

mutual

/-- The normal form of a document is not deeper than the document. -/
lemma depth_normalize : ∀ v : Json, v.normalize.depth ≤ v.depth
  | .null | .bool _ | .num _ | .str _ => le_rfl
  | .arr items => by
    rw [normalize, depth, depth]
    exact Nat.succ_le_succ (depthOfItems_normalize items)
  | .obj fields => by
    rw [normalize, depth, depth]
    refine Nat.succ_le_succ (depthOfFields_le_iff.2 fun f hf => ?_)
    have hf := SortedMap.mem_of_mem_sortEntries hf
    exact (depthOfFields_le_iff.1 le_rfl f hf).trans (depthOfFields_normalize fields)

/-- The normal forms of items are not deeper than the items. -/
lemma depthOfItems_normalize : ∀ vs : List Json, depthOfItems (normalizeItems vs) ≤ depthOfItems vs
  | [] => le_rfl
  | v :: vs => max_le_max (depth_normalize v) (depthOfItems_normalize vs)

/-- The normal forms of fields are not deeper than the fields. -/
lemma depthOfFields_normalize : ∀ fs : List (String × Json),
    depthOfFields (normalizeFields fs) ≤ depthOfFields fs
  | [] => le_rfl
  | (_, v) :: fs => max_le_max (depth_normalize v) (depthOfFields_normalize fs)

end

mutual

/-- A normal form is its own normal form. -/
lemma normalize_normalize : ∀ v : Json, v.normalize.normalize = v.normalize
  | .null | .bool _ | .num _ | .str _ => rfl
  | .arr items => by rw [normalize, normalize, normalizeItems_normalizeItems items]
  | .obj fields => by
    rw [normalize, normalize, normalizeFields_eq_map (SortedMap.sortEntries _),
      ← SortedMap.sortEntries_map, ← normalizeFields_eq_map, normalizeFields_normalizeFields fields,
      SortedMap.sortEntries_of_sorted (SortedMap.sortEntries_sorted _)]

/-- Normalising items twice is normalising them once. -/
lemma normalizeItems_normalizeItems : ∀ vs : List Json,
    normalizeItems (normalizeItems vs) = normalizeItems vs
  | [] => rfl
  | v :: vs => by
    rw [normalizeItems, normalizeItems, normalize_normalize v, normalizeItems_normalizeItems vs]

/-- Normalising fields twice is normalising them once. -/
lemma normalizeFields_normalizeFields : ∀ fs : List (String × Json),
    normalizeFields (normalizeFields fs) = normalizeFields fs
  | [] => rfl
  | (k, v) :: fs => by
    rw [normalizeFields, normalizeFields, normalize_normalize v,
      normalizeFields_normalizeFields fs]

end

/-- The canonical text of a value reads back as its normal form. -/
theorem parse?_canonical {v : Json} (hv : v.WellFormed) (hd : v.depth ≤ maxDepth) :
    parse? v.canonical = some v.normalize := by
  rw [parse?, canonical, read?_compact hv.normalize ((depth_normalize v).trans hd), Option.map_some,
    normalize_normalize]

/-- A value that is read from a text is well formed. -/
theorem wellFormed_parse? {s : String} {v : Json} (h : parse? s = some v) : v.WellFormed := by
  obtain ⟨w, hw, rfl⟩ := Option.map_eq_some_iff.1 h
  obtain ⟨⟨_, _, _, -, -, hspells, -⟩, -⟩ := read?_eq_some_iff.1 hw
  exact hspells.wellFormed.normalize

/-! ## Canonical values -/

/-- A value in normal form, with numbers of JSON, of which the containers are nested to at most the
given depth. -/
structure IsCanonical (d : ℕ) (v : Json) : Prop where
  wellFormed : v.WellFormed
  depth_le : v.depth ≤ d
  normal : v.normalize = v

namespace IsCanonical

variable {d : ℕ} {v w : Json}

/-- A document that is canonical up to a depth is canonical up to a greater one. -/
lemma mono {e : ℕ} (h : IsCanonical d v) (hde : d ≤ e) : IsCanonical e v :=
  ⟨h.wellFormed, h.depth_le.trans hde, h.normal⟩

/-- Null is canonical. -/
lemma null : IsCanonical d null := ⟨by simp [WellFormed], Nat.zero_le d, rfl⟩

/-- A truth value is canonical. -/
lemma bool (b : Bool) : IsCanonical d (bool b) := ⟨by simp [WellFormed], Nat.zero_le d, rfl⟩

/-- A text is canonical. -/
lemma str (s : String) : IsCanonical d (str s) := ⟨by simp [WellFormed], Nat.zero_le d, rfl⟩

/-- A well-formed number is canonical. -/
lemma num {n : JsonNumber} (hn : n.WellFormed) : IsCanonical d (num n) :=
  ⟨by simpa [WellFormed] using hn, Nat.zero_le d, rfl⟩

/-- The document of a floating number is canonical. -/
lemma float (x : Binary64) : IsCanonical d (float x) := by
  rw [Json.float]
  split
  · rename_i h
    exact num h
  · exact null

/-- A list of canonical documents is canonical. -/
lemma arr {vs : List Json} (h : ∀ v ∈ vs, IsCanonical d v) : IsCanonical (d + 1) (arr vs) where
  wellFormed := by
    rw [WellFormed, wellFormedItems_iff]
    exact fun v hv => (h v hv).wellFormed
  depth_le := by
    rw [depth, Nat.add_le_add_iff_right, depthOfItems_le_iff]
    exact fun v hv => (h v hv).depth_le
  normal := by
    rw [normalize, normalizeItems_eq_map, List.map_congr_left fun v hv => (h v hv).normal,
      List.map_id']

/-- A list of texts is canonical. -/
lemma strs (ss : List String) : IsCanonical (d + 1) (strs ss) :=
  arr fun v hv => by
    obtain ⟨s, -, rfl⟩ := List.mem_map.1 hv
    exact str s

/-- The fields of a canonical object are sorted. -/
lemma obj {fs : List (String × Json)} (hs : fs.Pairwise (fun a b => a.1 < b.1))
    (h : ∀ f ∈ fs, IsCanonical d f.2) : IsCanonical (d + 1) (obj fs) where
  wellFormed := by
    rw [WellFormed, wellFormedFields_iff]
    exact fun f hf => (h f hf).wellFormed
  depth_le := by
    rw [depth, Nat.add_le_add_iff_right, depthOfFields_le_iff]
    exact fun f hf => (h f hf).depth_le
  normal := by
    have hfields : normalizeFields fs = fs := by
      rw [normalizeFields_eq_map]
      refine (List.map_congr_left fun f hf => ?_).trans (List.map_id fs)
      rw [(h f hf).normal]
      rfl
    rw [normalize, hfields, SortedMap.sortEntries_of_sorted hs]

/-- A record with sorted names and canonical fields is canonical. -/
lemma record {fs : List (String × Json)} {names : List String} (hs : names.Pairwise (· < ·))
    (hn : fs.map Prod.fst = names) (h : ∀ f ∈ fs, IsCanonical d f.2) : IsCanonical (d + 1) (.obj fs) :=
  obj (List.pairwise_map.1 (hn ▸ hs)) h

/-- A map to canonical documents is canonical. -/
lemma ofMap {α : Type} {f : α → Json} {m : SortedMap α}
    (h : ∀ e ∈ m.entries, IsCanonical d (f e.2)) : IsCanonical (d + 1) (ofMap f m) :=
  obj (m.map f).sorted fun g hg => by
    obtain ⟨e, he, rfl⟩ := List.mem_map.1 hg
    exact h e he

/-- A canonical value reads back from its text. -/
lemma parse? (h : IsCanonical d v) (hd : d ≤ maxDepth) : parse? v.canonical = some v := by
  rw [parse?_canonical h.wellFormed (h.depth_le.trans hd), h.normal]

end IsCanonical

end Json

end ProvenTables
