import ProvenTables.Json.Shape
import ProvenTables.Proofs.Json.RoundTrip

/-!
# Reading back indented texts

The indented text of a value of a known shape reads back: texts and numbers, maps of values of one
shape, and records with all of their fields in their order.
-/

namespace ProvenTables.Json

/-! ## Text between values -/

/-- The blanks at the front of a line are skipped. -/
lemma skipSpace_newline {c : Char} (h : isSpace c = false) (level : ℕ) (t : List Char) :
    skipSpace (newline level ++ c :: t) = c :: t := by
  have hblank : ∀ n, (List.replicate n ' ' ++ c :: t).dropWhile isSpace = c :: t := by
    intro n
    induction n with
    | zero => exact skipSpace_cons h t
    | succ n ih => exact ih
  exact hblank (2 * level)

/-- A colon is taken after a name. -/
lemma takeColon_cons (r : List Char) : takeColon (':' :: r) = .ok r := by
  simp only [takeColon, skipSpace_cons (c := ':') (by decide)]

/-- The name of the first field is taken. -/
lemma takeName_first (k : String) (level : ℕ) (r : List Char) :
    takeName false (newline level ++ (quote k ++ r)) = .ok (some k, r) := by
  simp only [takeName, quote, List.cons_append, List.append_assoc, List.nil_append,
    skipSpace_newline (c := '"') (by decide)]
  simp [readString?_of_spells (spells_flatMap_escapeChar _), orMalformed, bind, Except.bind, pure, Except.pure]

/-- The name of a further field is taken after a comma. -/
lemma takeName_next (k : String) (level : ℕ) (r : List Char) :
    takeName true (',' :: (newline level ++ (quote k ++ r))) = .ok (some k, r) := by
  simp only [takeName, quote, List.cons_append, List.append_assoc, List.nil_append,
    skipSpace_cons (c := ',') (by decide), skipSpace_newline (c := '"') (by decide)]
  simp [readString?_of_spells (spells_flatMap_escapeChar _), orMalformed, bind, Except.bind, pure, Except.pure]

/-- The end of the fields is taken. -/
lemma takeName_last (more : Bool) (level : ℕ) (r : List Char) :
    takeName more (newline level ++ '}' :: r) = .ok (none, r) := by
  simp only [takeName, skipSpace_newline (c := '}') (by decide)]

/-- A number ends before the next field or the end of the fields. -/
lemma numberEnds_indentedFields (level : ℕ) (fs : List (String × Json)) (r : List Char) :
    NumberEnds (indentedFields level fs ++ r) := by
  cases fs with
  | nil =>
    intro c hc
    cases hc
    decide
  | cons f fs => exact numberEnds_cons (.inl rfl) _

/-- Every field takes at least one character. -/
lemma length_le_indentedFields (level : ℕ) (fs : List (String × Json)) :
    fs.length ≤ (indentedFields level fs).length := by
  induction fs with
  | nil => exact Nat.zero_le _
  | cons f fs ih =>
    rw [indentedFields]
    simp only [List.length_cons, List.length_append]
    omega

/-- The text of an object has at least as many characters as the object has fields. -/
lemma length_le_indented (level : ℕ) (fs : List (String × Json)) :
    fs.length ≤ (indented level (obj fs)).length := by
  cases fs with
  | nil => exact Nat.zero_le _
  | cons f fs =>
    have hrest := length_le_indentedFields level fs
    rw [indented]
    simp only [List.length_cons, List.length_append]
    omega

namespace Shape

/-- The indented text of the value is read as a value of the shape, whatever white space is before it
and if what comes after it ends a number. This takes so much fuel, and so many containers in each
other. -/
def Reads (shape : Shape) (fuel depth : ℕ) (v : Json) : Prop :=
  ∀ f d level r cs, fuel ≤ f → depth ≤ d → NumberEnds r →
    skipSpace cs = skipSpace (v.indented level ++ r) → shape.take f d cs = .ok (v, r)

variable {shape : Shape} {n d : ℕ}

/-- More steps and a greater depth read the same. -/
lemma Reads.mono {v : Json} {n' d' : ℕ} (h : shape.Reads n d v) (hn : n ≤ n') (hd : d ≤ d') :
    shape.Reads n' d' v :=
  fun f e level r cs hf he => h f e level r cs (hn.trans hf) (hd.trans he)

/-! ## Values without fields -/

/-- A text is read by the shape of texts. -/
lemma reads_text (s : String) : Reads .text 1 0 (str s) := by
  intro f d level r cs hf _ _ hcs
  obtain ⟨f, rfl⟩ : ∃ g, f = g + 1 := ⟨f - 1, by omega⟩
  simp only [take, takeText, hcs, indented, chars, quote, List.cons_append,
    skipSpace_cons (c := '"') (by decide)]
  simp [readString?_of_spells (spells_flatMap_escapeChar _), orMalformed, bind, Except.bind, pure, Except.pure]

/-- A number is read by the shape of anything. -/
lemma reads_num {m : JsonNumber} (hm : m.WellFormed) : Reads .any 1 0 (num m) := by
  intro f d level r cs hf _ hr hcs
  obtain ⟨f, rfl⟩ : ∃ g, f = g + 1 := ⟨f - 1, by omega⟩
  have hread : readValue? (cs.length + 1) d ([] ++ (m.render.toList ++ r)) = some (num m, r) :=
    readValue?_of_readNumber? allSpace_nil (readNumber?_of_spells (spells_render hm) hr)
  rw [List.nil_append, readValue?] at hread
  simp only [take, readValue?, hcs, indented, chars, hread]
  rfl

/-! ## Maps -/

/-- The fields of a map are read from their lines. -/
lemma takeFields_indented {fs : List (String × Json)} (h : ∀ f ∈ fs, shape.Reads n d f.2)
    {fuel depth level : ℕ} {r : List Char} (hfuel : n + fs.length + 1 ≤ fuel) (hd : d ≤ depth) :
    takeFields fuel depth shape true (indentedFields level fs ++ r) = .ok (fs, r) := by
  induction fs generalizing fuel with
  | nil =>
    obtain ⟨f, rfl⟩ : ∃ g, fuel = g + 1 := ⟨fuel - 1, by omega⟩
    simp only [takeFields, indentedFields, List.append_assoc, List.cons_append, List.nil_append,
      takeName_last]
    rfl
  | cons field fs ih =>
    obtain ⟨k, v⟩ := field
    obtain ⟨hv, hfs⟩ := List.forall_mem_cons.1 h
    rw [List.length_cons] at hfuel
    obtain ⟨f, rfl⟩ : ∃ g, fuel = g + 1 := ⟨fuel - 1, by omega⟩
    have hvalue := hv f depth (level + 1) (indentedFields level fs ++ r)
      (' ' :: (v.indented (level + 1) ++ (indentedFields level fs ++ r))) (by omega) hd
      (numberEnds_indentedFields level fs r) rfl
    have hrest : takeFields f depth shape true (indentedFields level fs ++ r) = .ok (fs, r) :=
      ih hfs (by omega)
    simp only [takeFields, indentedFields, List.cons_append, List.append_assoc, takeName_next,
      bind, Except.bind, takeColon_cons, hvalue, hrest, pure, Except.pure]

/-- A map is read if its values are. -/
lemma reads_map {fs : List (String × Json)} {m e : ℕ} (h : ∀ f ∈ fs, shape.Reads n d f.2)
    (hm : n + fs.length + 2 ≤ m) (he : d + 1 ≤ e) : (map shape).Reads m e (obj fs) := by
  intro f depth level r cs hf hdepth _ hcs
  obtain ⟨f, rfl⟩ : ∃ g, f = g + 1 := ⟨f - 1, by omega⟩
  obtain ⟨depth, rfl⟩ : ∃ e, depth = e + 1 := ⟨depth - 1, by omega⟩
  cases fs with
  | nil =>
    obtain ⟨f, rfl⟩ : ∃ g, f = g + 1 := ⟨f - 1, by omega⟩
    simp [take, takeFields, takeName, hcs, indented, chars, skipSpace_cons (c := '{') (by decide),
      skipSpace_cons (c := '}') (by decide), descend, bind, Except.bind, pure, Except.pure]
  | cons field fs =>
    obtain ⟨k, v⟩ := field
    obtain ⟨hv, hfs⟩ := List.forall_mem_cons.1 h
    rw [List.length_cons] at hm
    obtain ⟨f, rfl⟩ : ∃ g, f = g + 1 := ⟨f - 1, by omega⟩
    have hvalue := hv f depth (level + 1) (indentedFields level fs ++ r)
      (' ' :: (v.indented (level + 1) ++ (indentedFields level fs ++ r))) (by omega) (by omega)
      (numberEnds_indentedFields level fs r) rfl
    have hrest : takeFields f depth shape true (indentedFields level fs ++ r) = .ok (fs, r) :=
      takeFields_indented hfs (by omega) (by omega)
    simp only [take, hcs, indented, List.cons_append, List.append_assoc,
      skipSpace_cons (c := '{') (by decide), descend, takeFields, takeName_first, bind,
      Except.bind, takeColon_cons, hvalue, hrest, pure, Except.pure]

/-! ## Records -/

/-- The record has the field, of a shape that reads its value. -/
def HasField (fields : List (String × Shape)) (fuel depth : ℕ) (f : String × Json) : Prop :=
  ∃ shape, fields.find? (fun g => g.1 = f.1) = some (f.1, shape) ∧ shape.Reads fuel depth f.2

variable {fields : List (String × Shape)} {required : List String}

/-- The fields of a record are read from their lines, each of them once. -/
lemma takeRecord_indented {read fs : List (String × Json)} (h : ∀ f ∈ fs, HasField fields n d f)
    (hnodup : ((read ++ fs).map Prod.fst).Nodup)
    (hall : ∀ k ∈ required, k ∈ (read ++ fs).map Prod.fst) {fuel depth level : ℕ} {r : List Char}
    (hfuel : n + fs.length + 1 ≤ fuel) (hd : d ≤ depth) :
    takeRecord fuel depth fields required read true (indentedFields level fs ++ r) =
      .ok (read ++ fs, r) := by
  induction fs generalizing fuel read with
  | nil =>
    obtain ⟨f, rfl⟩ : ∃ g, fuel = g + 1 := ⟨fuel - 1, by omega⟩
    -- every required field has been read when the object closes
    have hread : (required.all fun k => (read.find? fun f => f.1 = k).isSome) = true := by
      refine List.all_eq_true.2 fun k hk => ?_
      simpa using hall k hk
    simp only [takeRecord, indentedFields, List.append_assoc, List.cons_append, List.nil_append,
      takeName_last, bind, Except.bind, hread, ↓reduceIte, List.append_nil]
    rfl
  | cons field fs ih =>
    obtain ⟨k, v⟩ := field
    obtain ⟨⟨shape, hshape, hv⟩, hfs⟩ := List.forall_mem_cons.1 h
    rw [List.length_cons] at hfuel
    obtain ⟨f, rfl⟩ : ∃ g, fuel = g + 1 := ⟨fuel - 1, by omega⟩
    have hvalue := hv f depth (level + 1) (indentedFields level fs ++ r)
      (' ' :: (v.indented (level + 1) ++ (indentedFields level fs ++ r))) (by omega) hd
      (numberEnds_indentedFields level fs r) rfl
    -- the field's name is new, so the record is not refused for a repeated one
    have hnew : (read.find? fun f => f.1 = k).isSome = false := by
      rw [List.map_append, List.nodup_append] at hnodup
      refine Option.isSome_eq_false_iff.2 (Option.isNone_iff_eq_none.2 ?_)
      refine List.find?_eq_none.2 fun f hf hk => ?_
      exact hnodup.2.2 f.1 (List.mem_map_of_mem hf) k List.mem_cons_self (by simpa using hk)
    have hrest : takeRecord f depth fields required (read ++ [(k, v)]) true
        (indentedFields level fs ++ r) = .ok (read ++ [(k, v)] ++ fs, r) :=
      ih hfs (by simpa using hnodup) (by simpa using hall) (by omega)
    simp only [takeRecord, indentedFields, List.cons_append, List.append_assoc, takeName_next,
      bind, Except.bind, hshape, hnew, Bool.false_eq_true, ↓reduceIte, takeColon_cons, hvalue, hrest,
      List.nil_append]

/-- A record reads back if it has all of its fields, each once. -/
lemma reads_record {field : String × Json} {fs : List (String × Json)} {m e : ℕ}
    (h : ∀ f ∈ field :: fs, HasField fields n d f)
    (hnames : (field :: fs).map Prod.fst = fields.map Prod.fst)
    (hnodup : (fields.map Prod.fst).Nodup) (hm : n + fs.length + 3 ≤ m) (he : d + 1 ≤ e) :
    (record fields []).Reads m e (obj (field :: fs)) := by
  intro f depth level r cs hf hdepth _ hcs
  obtain ⟨k, v⟩ := field
  obtain ⟨f, rfl⟩ : ∃ g, f = g + 2 := ⟨f - 2, by omega⟩
  obtain ⟨depth, rfl⟩ : ∃ e, depth = e + 1 := ⟨depth - 1, by omega⟩
  obtain ⟨⟨shape, hshape, hv⟩, hfs⟩ := List.forall_mem_cons.1 h
  have hvalue := hv f depth (level + 1) (indentedFields level fs ++ r)
    (' ' :: (v.indented (level + 1) ++ (indentedFields level fs ++ r))) (by omega) (by omega)
    (numberEnds_indentedFields level fs r) rfl
  have hrest : takeRecord f depth fields (fields.map Prod.fst) [(k, v)] true
      (indentedFields level fs ++ r) = .ok ((k, v) :: fs, r) :=
    takeRecord_indented hfs (hnames ▸ hnodup) (fun q hq => hnames ▸ hq) (by omega) (by omega)
  simp only [take, hcs, indented, List.cons_append, List.append_assoc, List.append_nil,
    skipSpace_cons (c := '{') (by decide), descend, takeRecord, takeName_first, bind, Except.bind,
    hshape, List.find?_nil, Option.isSome_none, Bool.false_eq_true, ↓reduceIte, takeColon_cons,
    hvalue, List.nil_append]
  rw [show (fields.map fun x => x.1) = fields.map Prod.fst from rfl, hrest]
  rfl

/-- A value reads back from its indented text if the text is long enough to give the fuel. -/
lemma Reads.read {v : Json} (h : shape.Reads n d v) (hn : n ≤ 2 * (v.indented 0).length + 8)
    (hd : d ≤ maxDepth) : shape.read v.pretty = .ok v := by
  have htake := h (2 * (v.indented 0).length + 8) maxDepth 0 [] (v.indented 0) hn hd NumberEnds.nil
    (by rw [List.append_nil])
  simp only [Shape.read, pretty, String.toList_ofList, htake, bind, Except.bind]
  rfl

end Shape

end ProvenTables.Json
