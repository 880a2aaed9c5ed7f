import ProvenTables.Proofs.Json.RoundTrip
import ProvenTables.Proofs.Timestamp.RoundTrip
import ProvenTables.Proofs.Traverse
import ProvenTables.Sql.Literal

/-!
# Reading back scalars

A finite scalar reads back from its JSON exactly if it is dated, that is no timestamp with a signed
year. Scalars that come from literals and from JSON are finite.
-/

namespace ProvenTables

namespace Scalar

/-- No float is infinite or no number. -/
def IsFinite : Scalar → Prop
  | float x => x.isFinite = true
  | floats xs => ∀ x ∈ xs, x.isFinite = true
  | _ => True

/-- A timestamp has a year of four digits. -/
def IsDated : Scalar → Prop
  | datetime t => t.IsDated
  | _ => True

/-- Whether a value is read back with its year can be decided. -/
instance (x : Scalar) : Decidable x.IsDated := by
  cases x <;> unfold IsDated <;> infer_instance

/-- A finite number is read back from its document. -/
lemma float?_float {x : Binary64} (h : x.isFinite = true) : (Json.float x).float? = some x := by
  rw [Json.float, if_pos h]
  rfl

/-- A finite scalar reads back from its JSON if it is dated, and else nothing does. -/
theorem ofJson?_toJson {x : Scalar} (h : x.IsFinite) :
    ofJson? x.type x.toJson = if x.IsDated then some x else none := by
  cases x with
  | int n =>
    have hint : (Json.int n.toInt).int64? = some n.toInt := if_pos n.toInt_lt
    simp [ofJson?, type, toJson, hint, IsDated]
  | float x => simp [ofJson?, type, toJson, float?_float h, IsDated]
  | bool b => simp [ofJson?, type, toJson, Json.bool?, IsDated]
  | string s => simp [ofJson?, type, toJson, Json.str?, IsDated]
  | datetime t =>
    simp only [ofJson?, type, toJson, Json.str?, Option.bind_some, Timestamp.read?_render, IsDated]
    by_cases h : t.IsDated <;> simp [h]
  | floats xs =>
    have hread : (xs.map Json.float).mapM Json.float? = some xs :=
      mapM_map_eq_some fun x hx => float?_float (h x hx)
    simp [ofJson?, type, toJson, Json.arr?, hread, IsDated]

/-- The document of a finite value gives that value, unless it is a timestamp with a signed year. -/
lemma ofJson?_eq_some_iff {x y : Scalar} (h : x.IsFinite) :
    ofJson? x.type x.toJson = some y ↔ x.IsDated ∧ x = y := by
  rw [ofJson?_toJson h]
  split <;> simp_all

/-- The document of a value is canonical. -/
lemma isCanonical_toJson (x : Scalar) : Json.IsCanonical 1 x.toJson := by
  cases x with
  | int n =>
    have hle : -2 ^ 63 ≤ n.toInt := n.le_toInt
    have hlt : n.toInt < 2 ^ 63 := n.toInt_lt
    refine .num ?_
    simp only [JsonNumber.WellFormed, Json.isWord, Bool.and_eq_true, decide_eq_true_eq]
    omega
  | float x => exact .float x
  | bool b => exact .bool b
  | string s => exact .str s
  | datetime t => exact .str t.render
  | floats xs =>
    refine .arr fun v hv => ?_
    obtain ⟨x, -, rfl⟩ := List.mem_map.1 hv
    exact .float x

/-! ## Finite scalars -/

/-- A number that is read from a well-formed document is finite. -/
lemma isFinite_of_float? {v : Json} {x : Binary64} (hv : v.WellFormed) (h : v.float? = some x) :
    x.isFinite = true := by
  match v, h with
  | .num (.int n), h =>
    cases h
    have hn : Json.isWord n = true := by
      simpa [Json.WellFormed, JsonNumber.WellFormed] using hv
    simp only [Json.isWord, Bool.and_eq_true, decide_eq_true_eq] at hn
    exact Binary64.isFinite_ofInt (by omega)
  | .num (.float y), h =>
    cases h
    simpa [Json.WellFormed, JsonNumber.WellFormed] using hv

/-- A scalar that is read from JSON is finite. -/
lemma isFinite_of_ofJson? {type : ColumnType} {v : Json} {x : Scalar} (hv : v.WellFormed)
    (h : ofJson? type v = some x) : x.IsFinite := by
  cases type <;> simp only [ofJson?, Option.map_eq_some_iff, Option.bind_eq_some_iff] at h
  case float =>
    obtain ⟨y, hy, rfl⟩ := h
    exact isFinite_of_float? hv hy
  case floats =>
    obtain ⟨ys, ⟨items, hitems, hys⟩, rfl⟩ := h
    obtain rfl : v = .arr items := by
      cases v <;> simp_all [Json.arr?]
    have hv := Json.wellFormedItems_iff.1 (by simpa only [Json.WellFormed] using hv)
    intro y hy
    obtain ⟨w, hw, hwy⟩ := exists_of_mapM_some hys y hy
    exact isFinite_of_float? (hv w hw) hwy
  all_goals
    obtain ⟨_, -, rfl⟩ := h
    trivial

end Scalar

namespace Sql

/-- A number that is read from characters is finite. -/
lemma isFinite_of_readFinite? {cs : List Char} {x : Binary64} (h : Binary64.readFinite? cs = some x) :
    x.isFinite = true := by
  obtain ⟨-, hx⟩ := Option.filter_eq_some_iff.1 h
  exact hx

/-- The numbers of a vector that is read are finite. -/
lemma isFinite_of_readVector {cs : List Char} {xs : List Binary64} (h : readVector cs = .ok xs) :
    ∀ x ∈ xs, x.isFinite = true := by
  simp only [readVector] at h
  split at h
  · cases h
  · split at h
    · cases h
      simp
    · intro x hx
      obtain ⟨item, -, hitem⟩ := (exists_of_mapM_ok h).2 x hx
      simp only [readComponent] at hitem
      split at hitem
      · rename_i y hy
        cases hitem
        exact isFinite_of_readFinite? hy
      · cases hitem

/-- A scalar that is read from a literal is finite. -/
lemma isFinite_of_readScalar? {type : ColumnType} {cs : List Char} {x : Scalar}
    (h : readScalar? type cs = some x) : x.IsFinite := by
  cases type <;> simp only [readScalar?, Option.map_eq_some_iff, Option.some.injEq] at h
  case float =>
    obtain ⟨y, hy, rfl⟩ := h
    exact isFinite_of_readFinite? hy
  case floats =>
    obtain ⟨ys, hys, rfl⟩ := h
    cases hv : readVector (stripQuotes cs) with
    | error e => rw [hv] at hys; cases hys
    | ok zs =>
      rw [hv] at hys
      cases hys
      exact isFinite_of_readVector hv
  case bool | string => subst h; trivial
  all_goals
    obtain ⟨_, -, rfl⟩ := h
    trivial

/-- A value that a literal is converted to is finite. -/
lemma isFinite_of_convert {column : Column} {literal : String} {x : Scalar}
    (h : convert column literal = .ok x) : x.IsFinite := by
  simp only [convert] at h
  split at h
  · rename_i w hw
    cases h
    exact isFinite_of_readScalar? hw
  · cases h

end Sql

end ProvenTables
