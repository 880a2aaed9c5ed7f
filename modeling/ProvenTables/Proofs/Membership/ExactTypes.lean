import ProvenTables.Proofs.Bytes
import ProvenTables.Proofs.Membership.Divisibility

/-!
# Exact types

Integers, truth values and texts are encoded without rounding and without hashing. An integer or a truth value
is determined by its encoding, and a text but for the characters of code zero that it begins with
(`encodeScalar_exact`), since the bytes of a text are read as one number. Records that differ in such
characters only have one witness at every challenge.
-/

namespace ProvenTables

/-! ## Texts as numbers -/

/-- A text without the characters of code zero that it begins with. -/
def Text.unpadded (s : String) : String := String.ofList (s.toList.dropWhile (· == '\x00'))

namespace Digest

/-- The first byte of a character is zero for the character of code zero only. -/
lemma exists_utf8EncodeChar {c : Char} (hc : c ≠ '\x00') :
    ∃ b bs, String.utf8EncodeChar c = b :: bs ∧ b ≠ 0 := by
  have hval : c.val.toNat ≠ 0 := fun h => hc (Char.ext (UInt32.toNat_inj.1 h))
  have hbyte : ∀ n, n < 256 → n ≠ 0 → UInt8.ofNat n ≠ 0 := fun n hlt hne h => by
    have hnat := congrArg UInt8.toNat h
    rw [UInt8.toNat_ofNat', Nat.mod_eq_of_lt hlt] at hnat
    exact hne hnat
  unfold String.utf8EncodeChar
  simp only
  split
  · exact ⟨_, _, rfl, hbyte _ (by omega) hval⟩
  · split
    · exact ⟨_, _, rfl, hbyte _ (by omega) (by omega)⟩
    · split
      · exact ⟨_, _, rfl, hbyte _ (by omega) (by omega)⟩
      · exact ⟨_, _, rfl, hbyte _ (by omega) (by omega)⟩

/-- The bytes of a text without leading zeros are those of the text without leading characters of code
zero. -/
lemma dropWhile_utf8 (s : String) : (utf8 s).dropWhile (· == 0) = utf8 (Text.unpadded s) := by
  rw [Text.unpadded, utf8_ofList, utf8_eq]
  induction s.toList with
  | nil => rfl
  | cons c cs ih =>
    rw [List.flatMap_cons, List.dropWhile_cons]
    by_cases hc : c = '\x00'
    · subst hc
      exact ih
    · obtain ⟨b, bs, hbs, hb⟩ := exists_utf8EncodeChar hc
      rw [if_neg (by simpa using hc), hbs, List.cons_append, List.dropWhile_cons, if_neg (by simpa using hb),
        List.flatMap_cons, hbs, List.cons_append]

/-- Texts have one number exactly if they are the same without leading characters of code zero. -/
lemma toNat_utf8_eq_iff {s t : String} :
    Bytes.toNat (utf8 s) = Bytes.toNat (utf8 t) ↔ Text.unpadded s = Text.unpadded t := by
  rw [Bytes.toNat_eq_iff, dropWhile_utf8, dropWhile_utf8, utf8_inj]

/-- NULs at the front of a text do not change the number that its bytes write. -/
lemma toNat_utf8_unpadded (s : String) : Bytes.toNat (utf8 (Text.unpadded s)) = Bytes.toNat (utf8 s) := by
  rw [← dropWhile_utf8, Bytes.toNat_dropWhile]

end Digest

/-- A value, if it is a text without the characters of code zero that it begins with. -/
def Scalar.unpadded : Scalar → Scalar
  | .string s => .string (Text.unpadded s)
  | v => v

/-- The types whose values are neither rounded nor hashed when they are encoded. -/
def ColumnType.IsExact : ColumnType → Prop
  | .int | .bool | .string => True
  | .float | .datetime | .floats => False

namespace Membership

variable {params : Params} {t : Table} {type : ColumnType} {v w : Scalar}

/-! ## Values -/

/-- A value has the integer that it has without NULs at the front. -/
lemma encodeScalar_unpadded (type : ColumnType) (v : Scalar) :
    encodeScalar type v.unpadded = encodeScalar type v := by
  cases v with
  | string s =>
    rw [Scalar.unpadded, encodeScalar, encodeScalar, encodeValue, encodeValue, Digest.toNat_utf8_unpadded]
    rfl
  | _ => rfl

/-- Every value of an exact type has an integer. -/
lemma exists_encodeScalar (htype : type.IsExact) (hv : v.type = type) : ∃ n, encodeScalar type v = .ok n := by
  subst hv
  rw [encodeScalar, if_pos rfl]
  cases v with
  | float x | datetime t | floats xs => cases htype
  | _ => exact ⟨_, rfl⟩

/-- Values of an exact type have the same integer if and only if they agree but for NULs at the front. -/
lemma encodeScalar_eq_iff (htype : type.IsExact) (hv : v.type = type) (hw : w.type = type) :
    encodeScalar type v = encodeScalar type w ↔ v.unpadded = w.unpadded := by
  constructor
  · subst hv
    rw [encodeScalar, encodeScalar, if_pos rfl, if_pos hw]
    cases v with
    | float x | datetime t | floats xs => cases htype
    | int n =>
      cases w <;> cases hw
      intro h
      exact congrArg Scalar.int (Int64.toInt_inj.1 (Except.ok.inj h))
    | bool b =>
      cases w <;> cases hw
      have hinj : ∀ b b' : Bool, b.toNat = b'.toNat → b = b' := by decide
      intro h
      exact congrArg Scalar.bool (hinj _ _ (Int.ofNat.inj (Except.ok.inj h)))
    | string s =>
      cases w <;> cases hw
      intro h
      exact congrArg Scalar.string (Digest.toNat_utf8_eq_iff.1 (Int.ofNat.inj (Except.ok.inj h)))
  · intro h
    rw [← encodeScalar_unpadded type v, h, encodeScalar_unpadded]

/-! ## Records -/

/-- The cells of different columns go through a function on the values. -/
lemma distinctCells_map (f : Scalar → Scalar) (seen : List ℕ) (columns : List (ℕ × Column)) (q : Row) :
    distinctCells seen columns (q.map f) =
      (distinctCells seen columns q).map fun cell => (cell.1, f cell.2) := by
  induction columns generalizing seen q with
  | nil => rfl
  | cons c cs ih =>
    cases q with
    | nil => rfl
    | cons v vs =>
      rw [List.map_cons, distinctCells, distinctCells, ih, ih]
      split <;> rfl

/-- A record has the field elements that it has without NULs at the front of its texts. -/
lemma encodeRecord_unpadded (columns : List (ℕ × Column)) (q : Row) :
    encodeRecord params columns (q.map Scalar.unpadded) = encodeRecord params columns q := by
  rw [encodeRecord, encodeRecord, distinctCells_map, List.mapM_map]
  congr 1
  funext cell
  rw [Function.comp_apply, encodeCell, encodeCell, encodeScalar_unpadded]

/-- No roots tell records apart that differ in leading characters of code zero only. -/
lemma recordRoots_unpadded (t : Table) (names : List String) (records : List Row) :
    recordRoots params t names (records.map (·.map Scalar.unpadded)) =
      recordRoots params t names records := by
  have hrecords : ∀ columns, (records.map (·.map Scalar.unpadded)).mapM (encodeRecord params columns) =
      records.mapM (encodeRecord params columns) := fun columns => by
    rw [List.mapM_map]
    congr 1
    funext q
    exact encodeRecord_unpadded columns q
  simp only [recordRoots, hrecords]

/-! ## Tables -/

/-- A value of an exact type is encoded like another exactly if they are the same but for the characters of
code zero that a text begins with. So a record has a value that is encoded like one of a column exactly if it
is the same as one of them in that sense, and records that are the same in that sense have one witness. -/
theorem encodeScalar_exact (params : Params) {t : Table} (ht : ∀ r ∈ t.rows, Table.Fits t.columns r) {i : ℕ}
    {c : Column} (hc : t.columns[i]? = some c) (htype : c.type.IsExact) {v : Scalar} (hv : v.type = c.type) :
    (∃ n, encodeScalar c.type v = .ok n) ∧
    (∀ w, w.type = c.type → (encodeScalar c.type v = encodeScalar c.type w ↔ v.unpadded = w.unpadded)) ∧
    ((∃ r ∈ t.rows, ∃ w, r[i]? = some w ∧ encodeScalar c.type v = encodeScalar c.type w) ↔
      ∃ r ∈ t.rows, ∃ w, r[i]? = some w ∧ v.unpadded = w.unpadded) ∧
    ∀ challenge names records,
      Witness.build params challenge t names (records.map (·.map Scalar.unpadded)) =
        Witness.build params challenge t names records := by
  have hcell : ∀ r ∈ t.rows, ∀ w, r[i]? = some w → w.type = c.type := fun r hr w hw => by
    have hget := congrArg (·[i]?) (ht r hr)
    simpa only [List.getElem?_map, hc, hw, Option.map_some, Option.some.injEq] using hget
  refine ⟨exists_encodeScalar htype hv, fun w => encodeScalar_eq_iff htype hv, ?_,
    fun challenge names records => ?_⟩
  · constructor
    · rintro ⟨r, hr, w, hw, h⟩
      exact ⟨r, hr, w, hw, (encodeScalar_eq_iff htype hv (hcell r hr w hw)).1 h⟩
    · rintro ⟨r, hr, w, hw, h⟩
      exact ⟨r, hr, w, hw, (encodeScalar_eq_iff htype hv (hcell r hr w hw)).2 h⟩
  · simp only [Witness.build, recordRoots_unpadded]

/-- A table of three names. -/
def users : Table where
  name := "users"
  columns := [⟨"name", .string⟩]
  rows := [[.string "Alice"], [.string "Bob"], [.string "Carol"]]
  indexes := .empty

/-- A user whose name begins with a character of code zero is none of the users, and has the witness of the
user without that character. -/
theorem encodeScalar_exact_users :
    (∀ r ∈ users.rows, Table.Fits users.columns r) ∧ ColumnType.IsExact .string ∧
      [.string "\x00Alice"] ∉ users.rows ∧
      (∃ r ∈ users.rows, ∃ w, r[0]? = some w ∧
        encodeScalar .string (.string "\x00Alice") = encodeScalar .string w) ∧
      ∀ challenge, Witness.build .bn254 challenge users ["name"] [[.string "\x00Alice"]] =
        Witness.build .bn254 challenge users ["name"] [[.string "Alice"]] := by
  have hrows : ∀ r ∈ users.rows, Table.Fits users.columns r := by decide
  have hunpadded : Scalar.unpadded (.string "\x00Alice") = .string "Alice" := by decide
  obtain ⟨-, -, hcells, hbuild⟩ := encodeScalar_exact .bn254 hrows (i := 0) (c := ⟨"name", .string⟩) rfl
    trivial (v := .string "\x00Alice") rfl
  refine ⟨hrows, trivial, by decide, hcells.2 ⟨[.string "Alice"], by decide, .string "Alice", rfl, by decide⟩,
    fun challenge => ?_⟩
  rw [← hbuild challenge ["name"] [[.string "\x00Alice"]], List.map_singleton, List.map_singleton, hunpadded]

end Membership

end ProvenTables
