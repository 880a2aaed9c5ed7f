import ProvenTables.Proofs.Storage.Decode

/-!
# Tables in chunks

A table that is written as the only one of a chunk, under any name, reads back from the text of the
chunk: with that name, its columns in their order, its rows and its indexes, every float with all its
bits.
-/

namespace ProvenTables

namespace Chunk

/-- The table of a name in the chunk that a text stands for. -/
def readTable (name content : String) : Except DataError Table := do
  let v ← Payload.require (Json.parse? content)
  let c ← ofJson v
  let p ← Payload.require (c.get? name)
  p.toTable name

/-- The text of a chunk of one payload holds the payload under its name. -/
lemma readTable_single {name : String} {p : Payload} (hp : p.IsEncoded) :
    readTable name (single name p).toJson.canonical = p.toTable name := by
  have hparse : Json.parse? (single name p).toJson.canonical = some (single name p).toJson :=
    (isCanonical_toJson_single hp).parse? (by decide)
  have hpayload : (single name p).get? name = some p := by simp [single]
  rw [readTable, hparse, Payload.require]
  change (ofJson (single name p).toJson >>= _) = _
  rw [ofJson_toJson_single hp]
  change (Payload.require ((single name p).get? name) >>= _) = _
  rw [hpayload]
  rfl

end Chunk

namespace Table

/-- The table under another name. -/
def named (t : Table) (name : String) : Table := { t with name := name }

/-- A sound table is sound under any name. -/
lemma IsSound.named {t : Table} (h : t.IsSound) (name : String) : (t.named name).IsSound :=
  ⟨h.distinct, h.rows⟩

end Table

namespace Chunk

/-- A sound table reads back from the text of its chunk if no timestamp in it has a signed year, and
else not at all. -/
theorem readTable_canonical {t u : Table} (h : t.IsSound) (name : String) :
    readTable name (single name (.ofTable t)).toJson.canonical = .ok u ↔
      t.IsDated ∧ u = t.named name := by
  rw [readTable_single (Payload.isEncoded_ofTable t)]
  exact Payload.toTable_ofTable (h.named name)

/-! ## A row of every type -/

/-- The last nanosecond of a leap second. -/
def leap : Timestamp where
  date := ⟨2016, 12, 31, by decide⟩
  second := 86399
  nanos := 1999999999
  second_lt := by decide
  nanos_lt := by decide
  last_of_leap := by decide

/-- The negative zero. -/
def minusZero : Binary64 := ⟨0x8000000000000000⟩

/-- A tenth, and the least positive float. -/
def vector : List Binary64 := [⟨0x3FB999999999999A⟩, ⟨1⟩]

/-- A row with a value of every type. -/
def sample : Row :=
  [.int Int64.minValue, .float minusZero, .bool true, .string "a \"b\"\n", .datetime leap,
    .floats vector]

/-- A table with a row of every type, which is in its index, too. -/
def samples : Table where
  name := "samples"
  columns := [⟨"z", .int⟩, ⟨"y", .float⟩, ⟨"x", .bool⟩, ⟨"w", .string⟩, ⟨"v", .datetime⟩,
    ⟨"u", .floats⟩]
  rows := [sample]
  indexes := .insert .empty "y" (Index.build [sample] 1)

/-- The rows of the sample are there twice, as rows of the table and of its index. -/
lemma allRows_samples : samples.allRows = [sample, sample] := rfl

/-- The sample is a sound table. -/
lemma isSound_samples : samples.IsSound := by
  refine ⟨by decide, fun r hr => ?_⟩
  rw [allRows_samples] at hr
  obtain rfl : r = sample := by simpa using hr
  refine ⟨by decide, ?_⟩
  simp only [Row.IsFinite, sample, List.forall_mem_cons, Scalar.IsFinite]
  exact ⟨trivial, by decide, trivial, trivial, trivial, by decide, by simp⟩

/-- The table reads back under another name. -/
theorem readTable_canonical_samples :
    samples.IsSound ∧ readTable "copy" (single "copy" (.ofTable samples)).toJson.canonical =
      .ok (samples.named "copy") := by
  have hdated : samples.IsDated := by decide
  exact ⟨isSound_samples, (readTable_canonical isSound_samples "copy").2 ⟨hdated, rfl⟩⟩

end Chunk

end ProvenTables
