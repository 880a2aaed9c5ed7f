import ProvenTables.Proofs.Scalar
import ProvenTables.Proofs.Sql.Lists

/-!
# Literals of scalars

A scalar is written as its text, in quotes if it is a string or a timestamp. That is a literal of a
statement if there is no quote in the scalar (`isValue_literalOf`), and stands for what the JSON of the
scalar stands for (`readScalar?_literalOf`).
-/

namespace ProvenTables

open Text

/-- The characters of a timestamp are digits, signs and separators. -/
lemma Timestamp.of_mem_chars {t : Timestamp} {c : Char} (h : c ∈ t.chars) :
    c.isDigit = true ∨ c ∈ ['+', '-', 'T', ':', '.', 'Z'] := by
  have hdigits : ∀ w n, c ∈ paddedDigits w n → c.isDigit = true := fun _ _ => isDigit_of_mem_paddedDigits
  have hyear : c ∈ renderYear t.date.year → c.isDigit = true ∨ c ∈ ['+', '-'] := by
    rw [renderYear]
    split
    · exact fun h => .inl (hdigits _ _ h)
    · intro h
      rcases List.mem_cons.1 h with rfl | h
      · right
        split <;> decide
      · exact .inl (hdigits _ _ h)
  have hfraction : c ∈ renderFraction (t.nanos % 10 ^ 9) → c.isDigit = true ∨ c = '.' := by
    rw [renderFraction]
    split_ifs
    · exact fun h => by cases h
    all_goals
      intro h
      rcases List.mem_cons.1 h with rfl | h
      · exact .inr rfl
      · exact .inl (hdigits _ _ h)
  simp only [chars, List.mem_append, List.mem_cons, List.not_mem_nil, or_false] at h hyear ⊢
  grind

/-- No quote in a string. -/
def Scalar.IsQuoteFree : Scalar → Prop
  | string s => Sql.quoteMark ∉ s.toList
  | _ => True

/-- Whether a value has no quotes can be decided. -/
instance : (x : Scalar) → Decidable x.IsQuoteFree
  | .string s => inferInstanceAs (Decidable (Sql.quoteMark ∉ s.toList))
  | .int _ | .float _ | .bool _ | .datetime _ | .floats _ => instDecidableTrue

namespace Sql

/-- The literal of a scalar. -/
def literalOf (x : Scalar) : String :=
  match x with
  | .string _ => quote x.render
  | .datetime _ => quote x.render
  | _ => x.render

/-- The literal of a scalar without quotes is one of a statement. -/
lemma isValue_literalOf {x : Scalar} (h : x.IsFinite) (hq : x.IsQuoteFree) : IsValue (literalOf x) := by
  cases x with
  | int n => exact .bare (isBare_int n.toInt)
  | float x => exact .bare (isBare_render h)
  | bool b =>
    refine .bare ?_
    cases b <;> decide
  | string s => exact .quoted hq
  | datetime t =>
    refine .quoted fun hmem => ?_
    rw [Scalar.render, Timestamp.render, String.toList_ofList] at hmem
    rcases Timestamp.of_mem_chars hmem with hdigit | hmem
    · cases hdigit
    · revert hmem
      decide
  | floats xs =>
    refine .list fun item hitem => ?_
    obtain ⟨x, hx, rfl⟩ := List.mem_map.1 hitem
    exact isBare_render (h x hx)

/-! ## Reading -/

/-- A text between characters that are no blanks has no blanks at its ends. -/
lemma isTrimmed_enclosed {a z : Char} (ha : isBlank a = false) (hz : isBlank z = false) (cs : List Char) :
    IsTrimmed (a :: (cs ++ [z])) := by
  constructor
  · rintro _ ⟨⟩
    exact ha
  · rw [← List.cons_append, List.getLast?_concat]
    rintro _ ⟨⟩
    exact hz

/-- The characters of a quoted text. -/
lemma toList_quote (v : String) : (quote v).toList = '\'' :: (v.toList ++ ['\'']) := by simp [quote]

/-- A string in quotes is what is left without them, whatever is in it. -/
lemma stripQuotes_quote (v : String) : stripQuotes (quote v).toList = v.toList := by
  rw [stripQuotes, toList_quote, trim_eq (isTrimmed_enclosed rfl rfl v.toList)]
  simp

/-- A text in brackets has no quotes to be taken off. -/
lemma stripQuotes_bracketed (items : List String) :
    stripQuotes (bracketed items).toList = (bracketed items).toList := by
  have htext : (bracketed items).toList = '[' :: ((", ".intercalate items).toList ++ [']']) := by
    simp [bracketed]
  rw [stripQuotes, htext, trim_eq (isTrimmed_enclosed rfl rfl _)]
  simp

/-- An integer of sixty-four bits is read back from its text. -/
lemma readInt64?_toString (n : Int64) : readInt64? (toString n.toInt).toList = some n := by
  have hrange : -2 ^ 63 ≤ n.toInt ∧ n.toInt < 2 ^ 63 := ⟨n.le_toInt, n.toInt_lt⟩
  rw [readInt64?, readInt?_toString, Option.bind_some, if_pos hrange, Int64.ofInt_toInt]

/-- A literal stands for what the JSON of its scalar stands for. -/
theorem readScalar?_literalOf {x : Scalar} (h : x.IsFinite) :
    readScalar? x.type (literalOf x).toList = Scalar.ofJson? x.type x.toJson := by
  rw [Scalar.ofJson?_toJson h]
  cases x with
  | int n =>
    change (readInt64? (toString n.toInt).toList).map Scalar.int = _
    rw [readInt64?_toString]
    rfl
  | float x =>
    change (Binary64.readFinite? (x.render .text).toList).map Scalar.float = _
    rw [Binary64.readFinite?_render h]
    rfl
  | bool b => cases b <;> rfl
  | string s =>
    change some (Scalar.string (String.ofList (stripQuotes (quote s).toList))) = _
    rw [stripQuotes_quote, String.ofList_toList]
    rfl
  | datetime t =>
    change (Timestamp.read? (String.ofList (stripQuotes (quote t.render).toList))).map Scalar.datetime = _
    rw [stripQuotes_quote, String.ofList_toList, Timestamp.read?_render]
    by_cases hd : t.IsDated <;> simp [Scalar.IsDated, hd]
  | floats xs =>
    have hread := readVector_renderFloats h (a := []) (z := []) (by simp) (by simp)
    rw [List.append_nil, List.nil_append] at hread
    change ((readVector (stripQuotes (bracketed (xs.map (·.render .text))).toList)).toOption).map
      Scalar.floats = _
    rw [stripQuotes_bracketed, ← renderFloats, hread]
    rfl

/-- The literal of a dated scalar is converted to the scalar. -/
lemma convert_literalOf {c : Column} {x : Scalar} (h : x.IsFinite) (hd : x.IsDated) (hq : x.IsQuoteFree)
    (ht : x.type = c.type) : convert c (literalOf x) = .ok x := by
  have htrim : trim (literalOf x).toList = (literalOf x).toList :=
    trim_eq (isText_value (isValue_literalOf h hq)).sharp.isTrimmed
  simp only [convert, htrim, ← ht, readScalar?_literalOf h, Scalar.ofJson?_toJson h, if_pos hd]

end Sql

end ProvenTables
