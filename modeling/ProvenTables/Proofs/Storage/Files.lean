import ProvenTables.Proofs.Json.Indented
import ProvenTables.Proofs.Storage.Addressing
import ProvenTables.Storage.Directory

/-!
# Directories that hold a memory

A directory whose files hold the objects and the registry of a memory answers every request as the
memory does, and then holds what the memory has become. Opening it again reads the same registry, so
that a process that stops loses nothing of it.
-/

namespace ProvenTables

/-! ## The registry file -/

namespace Json

/-- A natural number below the bound is read back. -/
lemma natBelow?_nat {n bound : ℕ} (h : n < bound) : (nat n).natBelow? bound = some n := by
  rw [nat, natBelow?, if_pos ⟨Int.natCast_nonneg n, Int.ofNat_lt.2 h⟩, Int.toNat_natCast]

/-- The document of a word is well-formed. -/
lemma wellFormed_word (n : UInt64) : (JsonNumber.int n.toNat).WellFormed := by
  have hn := n.toNat_lt
  simp only [JsonNumber.WellFormed, isWord, Bool.and_eq_true, decide_eq_true_eq]
  omega

end Json

namespace Pointer

/-- A registration is read from its three fields. -/
lemma ofJson?_of_record? {v id table address : Json}
    (h : v.record? ["id", "table_name", "sequence_cid"] = some [some id, some table, some address]) :
    ofJson? v = do
      return ⟨UInt64.ofNat (← id.natBelow? (2 ^ 64)), ← table.str?, ⟨← address.str?⟩⟩ := by
  rw [ofJson?, h]
  rfl

/-- A registration is read back from its record. -/
lemma ofJson?_toJson (p : Pointer) : ofJson? p.toJson = some p := by
  have hfields : p.toJson.record? ["id", "table_name", "sequence_cid"] =
      some [some (.nat p.id.toNat), some (.str p.table), some (.str p.address.text)] := by
    simp [toJson, Json.record?, Json.recordFields?]
  rw [ofJson?_of_record? hfields, Json.natBelow?_nat p.id.toNat_lt, Json.str?, Json.str?]
  exact congrArg (fun id => some (⟨id, p.table, p.address⟩ : Pointer)) UInt64.ofNat_toNat

/-- The record of a registration has its shape. -/
lemma reads_toJson (p : Pointer) : shape.Reads 6 1 p.toJson := by
  refine Json.Shape.reads_record (fun f hf => ?_) rfl (by decide) (n := 1) le_rfl le_rfl
  simp only [List.mem_cons, List.not_mem_nil, or_false] at hf
  rcases hf with rfl | rfl | rfl
  · exact ⟨_, rfl, Json.Shape.reads_num (Json.wellFormed_word p.id)⟩
  · exact ⟨_, rfl, Json.Shape.reads_text _⟩
  · exact ⟨_, rfl, Json.Shape.reads_text _⟩

end Pointer

namespace Registry

/-- A registry is read from its two fields. -/
lemma ofJson?_of_record? {v last pointers : Json}
    (h : v.record? ["next_id", "pointers"] = some [some last, some pointers]) :
    ofJson? v = do
      return ⟨UInt64.ofNat (← last.natBelow? (2 ^ 64)), ← pointers.map? Pointer.ofJson?⟩ := by
  rw [ofJson?, h]
  rfl

/-- A registry is read back from its record. -/
lemma ofJson?_toJson (r : Registry) : ofJson? r.toJson = some r := by
  have hpointers : (Json.ofMap Pointer.toJson r.pointers).map? Pointer.ofJson? = some r.pointers :=
    Json.map?_ofMap fun e _ => e.2.ofJson?_toJson
  have hfields : r.toJson.record? ["next_id", "pointers"] =
      some [some (.nat r.lastId.toNat), some (.ofMap Pointer.toJson r.pointers)] := by
    simp [toJson, Json.record?, Json.recordFields?]
  rw [ofJson?_of_record? hfields, Json.natBelow?_nat r.lastId.toNat_lt, hpointers]
  exact congrArg (fun id => some (⟨id, r.pointers⟩ : Registry)) UInt64.ofNat_toNat

/-- The record of a registry has its shape. -/
lemma reads_toJson (r : Registry) : shape.Reads (r.pointers.size + 12) 3 r.toJson := by
  have hpointer : ∀ f ∈ (r.pointers.map Pointer.toJson).entries, Pointer.shape.Reads 6 1 f.2 := by
    intro f hf
    obtain ⟨e, -, rfl⟩ := List.mem_map.1 hf
    exact e.2.reads_toJson
  have hpointers : (Json.Shape.map Pointer.shape).Reads (r.pointers.size + 8) 2
      (.ofMap Pointer.toJson r.pointers) := by
    refine Json.Shape.reads_map hpointer ?_ le_rfl
    simp only [SortedMap.map, SortedMap.size, List.length_map]
    omega
  refine Json.Shape.reads_record (fun f hf => ?_) rfl (by decide) (n := r.pointers.size + 8) le_rfl
    le_rfl
  simp only [List.mem_cons, List.not_mem_nil, or_false] at hf
  rcases hf with rfl | rfl
  · exact ⟨_, rfl, (Json.Shape.reads_num (Json.wellFormed_word r.lastId)).mono (by omega) (by omega)⟩
  · exact ⟨_, rfl, hpointers⟩

/-- A text with the shape of a registry is read as the registry. -/
lemma read_of_shape {content : String} {v : Json} {r : Registry} (hv : shape.read content = .ok v)
    (hr : ofJson? v = some r) : read content = .ok r := by
  simp only [read, hv, hr]

/-- A registry reads back from its file. -/
theorem read_render (r : Registry) : read r.render = .ok r := by
  have hlength : r.pointers.size ≤
      ((Json.ofMap Pointer.toJson r.pointers).indented (0 + 1)).length := by
    refine le_trans ?_ (Json.length_le_indented (0 + 1) (r.pointers.map Pointer.toJson).entries)
    exact (List.length_map _).ge
  refine read_of_shape (r.reads_toJson.read ?_ (by decide)) r.ofJson?_toJson
  rw [toJson, Json.indented]
  simp only [Json.indentedFields, List.length_cons, List.length_append]
  omega

end Registry

/-! ## Retries -/

/-- A read that does not fail for the moment is not tried again. -/
lemma RetryPolicy.result_read {α σ : Type} (p : RetryPolicy) {read : σ → Except StorageError α × σ}
    {s : σ} (h : ∀ e, (read s).1 = .error e → e.isTransient = false) :
    (p.read read s).1.result = (read s).1 := by
  obtain ⟨o, s', hs⟩ : ∃ o s', read s = (o, s') := ⟨_, _, rfl⟩
  rw [RetryPolicy.read]
  cases p.attempts - 1 with
  | zero => rfl
  | succ more =>
    rw [readFrom, hs]
    cases o with
    | ok a => rfl
    | error e =>
      have hstable := h e (by rw [hs])
      simp only [hstable, Bool.false_eq_true, ↓reduceIte]

/-! ## Objects -/

namespace Disk

variable {d : Disk} {o : Objects}

/-- The files of the directory are the objects: nothing else is in the way of one. -/
def Holds (d : Disk) (o : Objects) : Prop := ∀ a, d.fetch a = o.fetch a

/-- Addresses with the same file name are the same. -/
lemma fileName_inj {a b : Address} : fileName a = fileName b ↔ a = b := by
  constructor
  · intro h
    have htext := congrArg String.toList h
    simp only [fileName, String.toList_append, List.append_cancel_right_eq] at htext
    exact congrArg Address.mk (String.toList_inj.1 htext)
  · exact fun h => h ▸ rfl

/-- The file of an address is there if and only if its object is held. -/
lemma contains_of_holds (h : d.Holds o) {a : Address} (ha : a.isDigest = true) :
    d.objects.contains (fileName a) = o.contains a.text := by
  have hfetch := h a
  rw [fetch, ha, Objects.fetch] at hfetch
  rw [SortedMap.contains, SortedMap.contains]
  cases hd : d.objects.get? (fileName a) with
  | none => cases ho : o.get? a.text <;> simp_all
  | some e => cases e <;> cases ho : o.get? a.text <;> simp_all

/-- An object is written as the memory keeps it. -/
lemma holds_keep (h : d.Holds o) {a : Address} (ha : a.isDigest = true) (c : String) :
    (d.keep a c).1 = .ok () ∧ (d.keep a c).2.Holds (o.keep a c) := by
  have hcontains := contains_of_holds h ha
  rw [keep, Objects.keep, ← hcontains]
  cases hfile : d.objects.contains (fileName a) with
  | true => simpa [ha] using h
  | false =>
    simp only [ha, Bool.not_true, Bool.false_eq_true, ↓reduceIte, true_and]
    intro b
    have hb := h b
    rw [fetch, Objects.fetch] at hb ⊢
    by_cases hab : a = b
    · subst hab
      simp [ha]
    · have hfiles : fileName a ≠ fileName b := fun heq => hab (fileName_inj.1 heq)
      have htexts : a.text ≠ b.text := fun heq => hab (congrArg Address.mk heq)
      simpa [hfiles, htexts] using hb

/-- Keeping an object leaves the registry of a disk as it is. -/
lemma openRegistry_keep (d : Disk) (a : Address) (c : String) :
    (d.keep a c).2.openRegistry = d.openRegistry := by
  rw [keep]
  split
  · rfl
  · split <;> rfl

/-- The empty disk holds no objects. -/
lemma holds_empty : empty.Holds .empty := by
  intro a
  rw [fetch]
  split <;> rfl

end Disk

/-! ## Answers -/

namespace Directory

/-- The objects of the memory are in the files of the directory, and its registry is the one that the
process has and that would be read if the directory was opened again. -/
structure Holds (d : Directory) (m : Memory) : Prop where
  objects : d.disk.Holds m.objects
  registry : d.registry = m.registry
  file : d.disk.openRegistry = .ok d.registry

variable {d : Directory} {m : Memory}

/-- Opening the directory again changes nothing. -/
lemma Holds.mount (h : d.Holds m) : Directory.mount d.disk d.retry = .ok d := by
  rw [Directory.mount, h.file]
  rfl

/-- A change of the registry is in the file before it is answered. -/
lemma Holds.change (h : d.Holds m) (outcome : Except StorageError (Pointer × Registry)) :
    (d.change outcome).1 = (m.registry.change outcome).1 ∧
      (d.change outcome).2.Holds { m with registry := (m.registry.change outcome).2 } := by
  cases outcome with
  | error e => exact ⟨rfl, h⟩
  | ok x => exact ⟨rfl, h.objects, rfl, Registry.read_render x.2⟩

/-- A directory answers as the memory that it holds. -/
theorem Holds.answer (h : d.Holds m) {r : Request}
    (hr : ∀ a c, r = .keep a c → a.isDigest = true) :
    (Directory.answer r d).1 = (Memory.answer r m).1 ∧
      (Directory.answer r d).2.Holds (Memory.answer r m).2 := by
  cases r with
  | fetch a =>
    refine ⟨?_, h⟩
    have hstable : ∀ e, d.disk.fetch a = .error e → e.isTransient = false := by
      intro e he
      rw [h.objects a, Objects.fetch] at he
      split at he
      · cases he
      · cases he
        rfl
    exact (d.retry.result_read hstable).trans (h.objects a)
  | keep a c =>
    obtain ⟨hanswer, hholds⟩ := Disk.holds_keep h.objects (hr a c rfl) c
    exact ⟨hanswer, hholds, h.registry, (d.disk.openRegistry_keep a c).trans h.file⟩
  | lookup table => exact ⟨by simp only [Directory.answer, Memory.answer, h.registry], h⟩
  | create table a =>
    rw [Directory.answer, h.registry]
    exact h.change (m.registry.create table a)
  | repoint table expected new =>
    rw [Directory.answer, h.registry]
    exact h.change (m.registry.repoint table expected new)
  | list => exact ⟨by simp only [Directory.answer, Memory.answer, h.registry], h⟩

/-- The empty directory holds no objects and no tables. -/
lemma holds_empty (retry : RetryPolicy) : (⟨.empty, .empty, retry⟩ : Directory).Holds .empty :=
  ⟨Disk.holds_empty, rfl, rfl⟩

end Directory

end ProvenTables
