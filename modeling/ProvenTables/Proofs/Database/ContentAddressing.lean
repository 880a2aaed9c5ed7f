import Mathlib
import ProvenTables.Proofs.Database.Restarts
import ProvenTables.Proofs.Digest.Evaluation
import ProvenTables.Proofs.Json.Alike

/-!
# Values and their addresses

A value is stored as its canonical bytes, under their digest. The bytes determine the value, and the texts
that stand for it up to spelling and the order of fields are all stored as the same bytes. So in a store
that was new, in memory or in a directory, a value that is put is what its address gives from then on, and
putting it again changes nothing.
-/

namespace ProvenTables

open Json (IsCanonical IsSpelled Alike maxDepth)
open Storage (put get Stored)

/-! ## Texts -/

namespace Json

variable {s t : String} {v w : Json}

/-- Canonical values with the same canonical bytes are equal. -/
lemma IsCanonical.eq_of_utf8 (hv : IsCanonical maxDepth v) (hw : IsCanonical maxDepth w)
    (h : Digest.utf8 v.canonical = Digest.utf8 w.canonical) : v = w := by
  have halike : Alike v w :=
    (canonical_eq_iff hv.wellFormed hw.wellFormed hv.depth_le hw.depth_le).1 (Digest.utf8_inj.1 h)
  exact hv.normal.symm.trans (halike.normalize_eq.trans hw.normal)

/-- The value of a spelled text, in normal form. -/
lemma parse?_of_isSpelled (hs : IsSpelled v s) (hd : v.depth ≤ maxDepth) : parse? s = some v.normalize := by
  rw [parse?, read?_eq_some_iff.2 ⟨hs, hd⟩, Option.map_some]

/-- A spelled document has a canonical normal form. -/
lemma isCanonical_normalize_of_isSpelled (hs : IsSpelled v s) (hd : v.depth ≤ maxDepth) :
    IsCanonical maxDepth v.normalize where
  wellFormed := wellFormed_parse? (parse?_of_isSpelled hs hd)
  depth_le := (depth_normalize v).trans hd
  normal := normalize_normalize v

/-- The values of two texts have the same canonical bytes exactly if they are alike. -/
lemma utf8_canonical_eq_iff (hs : IsSpelled v s) (ht : IsSpelled w t) (hv : v.depth ≤ maxDepth)
    (hw : w.depth ≤ maxDepth) :
    Digest.utf8 v.normalize.canonical = Digest.utf8 w.normalize.canonical ↔ Alike v w := by
  rw [alike_iff]
  refine ⟨fun h => ?_, fun h => h ▸ rfl⟩
  exact (isCanonical_normalize_of_isSpelled hs hv).eq_of_utf8 (isCanonical_normalize_of_isSpelled ht hw) h

end Json

/-! ## Objects -/

namespace Objects

variable {o : Objects} {contents : List String} {vs : List Json} {v : Json}

/-- The objects with values put among them, one after the other. -/
def putAll (o : Objects) (vs : List Json) : Objects := vs.foldl put o

/-- One list of documents is put after the other. -/
lemma putAll_append (o : Objects) (vs ws : List Json) : o.putAll (vs ++ ws) = (o.putAll vs).putAll ws :=
  List.foldl_append

/-- Putting documents adds objects only. -/
lemma grows_putAll (o : Objects) (vs : List Json) : o.Grows (o.putAll vs) := by
  induction vs generalizing o with
  | nil => exact .refl o
  | cons v vs ih => exact (o.grows_put v).trans (ih _)

/-- Every document that is put is there. -/
lemma has_putAll (o : Objects) (hv : v ∈ vs) : (o.putAll vs).Has (Address.ofJson v) := by
  obtain ⟨before, after, rfl⟩ := List.append_of_mem hv
  rw [putAll_append]
  exact ((o.putAll before).has_put v).grows (grows_putAll _ after)

/-- No objects are all under their own addresses. -/
lemma isAddressed_empty (contents : List String) : IsAddressed contents .empty := nofun

/-- Documents that are put are under their own addresses. -/
lemma isAddressed_putAll (h : o.IsAddressed contents) (hvs : ∀ v ∈ vs, v.canonical ∈ contents) :
    (o.putAll vs).IsAddressed contents := by
  induction vs generalizing o with
  | nil => exact h
  | cons v vs ih =>
    obtain ⟨hv, hvs⟩ := List.forall_mem_cons.1 hvs
    exact ih (isAddressed_keep h hv) hvs

/-- All values that have been put are stored. -/
lemma stored_putAll (h : o.IsAddressed contents) (hno : NoCollision contents)
    (hvs : ∀ v ∈ vs, v.canonical ∈ contents) (hv : v ∈ vs) : Stored (o.putAll vs) v := by
  obtain ⟨before, after, rfl⟩ := List.append_of_mem hv
  have hbefore := isAddressed_putAll h fun w hw => hvs w (List.mem_append_left _ hw)
  rw [putAll_append]
  exact (stored_put hbefore hno (hvs v hv)).grows (grows_putAll _ after)

end Objects

/-! ## Media -/

namespace Medium

/-- A medium that is the memory, or a directory that holds it. -/
def Holds : Medium → Memory → Prop
  | memory m, m' => m = m'
  | directory d, m' => d.Holds m'
  | contended _, _ => False

/-- A store in memory or in a directory with nothing in it. -/
inductive IsNew : Medium → Prop
  | memory : IsNew (memory .empty)
  | directory (retry : RetryPolicy) : IsNew (directory ⟨.empty, .empty, retry⟩)

/-- The medium after values have been put into it, one after the other. -/
def putAll (x : Medium) (vs : List Json) : Medium := vs.foldl (fun x v => ((put v).runOn x).2) x

/-- One list of documents is put after the other. -/
lemma putAll_append (x : Medium) (vs ws : List Json) : x.putAll (vs ++ ws) = (x.putAll vs).putAll ws :=
  List.foldl_append

variable {x : Medium} {m : Memory} {v : Json}

/-- A new medium holds nothing. -/
lemma IsNew.holds (h : x.IsNew) : x.Holds .empty := by
  cases h with
  | memory => rfl
  | directory retry => exact Directory.holds_empty retry

namespace Holds

/-- A procedure that keeps contents under their own addresses runs on a medium as in memory. -/
lemma run {ε α : Type} {p : Procedure ε α} (h : x.Holds m) (hp : p.KeepsOwn) :
    ∃ y, p.runOn x = ((p.run Memory.answer m).1, y) ∧ y.Holds (p.run Memory.answer m).2 := by
  cases x with
  | memory m' =>
    cases h
    exact ⟨_, p.runOn_memory m, rfl⟩
  | directory d =>
    obtain ⟨d', hrun, hend⟩ := Directory.Holds.run hp h
    exact ⟨.directory d', hrun, hend⟩
  | contended c => cases h

/-- A medium answers a fetch with the object that it holds. -/
lemma answer_fetch (h : x.Holds m) (a : Address) : x.answer (.fetch a) = (m.objects.fetch a, x) := by
  cases x with
  | memory m' =>
    cases h
    rfl
  | directory d => exact Prod.ext (Directory.Holds.answer h (r := .fetch a) nofun).1 rfl
  | contended c => cases h

/-- A content is not kept again. -/
lemma answer_keep {c : String} (h : x.Holds m) (hc : m.objects.Has (Address.ofText c)) :
    x.answer (.keep (Address.ofText c) c) = (.ok (), x) := by
  have hcontains : m.objects.contains (Address.ofText c).text = true := Option.isSome_iff_exists.2 hc
  have hdigest : (Address.ofText c).isDigest = true := Address.isDigest_ofText c
  generalize Address.ofText c = a at *
  cases x with
  | memory m' =>
    cases h
    simp only [answer, Memory.answer, Objects.keep, hcontains, ↓reduceIte]
  | directory d =>
    have hfile := (Disk.contains_of_holds (Directory.Holds.objects h) hdigest).trans hcontains
    simp only [answer, Directory.answer, Disk.keep, hdigest, hfile, Bool.not_true, Bool.false_eq_true,
      ↓reduceIte]
  | contended c => cases h

/-- A procedure that reads gives its outcome and leaves the medium as it is. -/
lemma runOn_of_reading? {ε α : Type} {p : Procedure ε α} {outcome : Except ε α} (h : x.Holds m)
    (hp : p.reading? m.objects = some outcome) : p.runOn x = (outcome, x) := by
  induction p with
  | done out =>
    cases hp
    rfl
  | step r next ih =>
    cases r with
    | fetch a =>
      rw [Procedure.reading?] at hp
      split at hp
      · rename_i c hc
        have hfetch : x.answer (.fetch a) = (.ok c, x) := by rw [h.answer_fetch, Objects.fetch, hc]
        rw [Procedure.runOn, Procedure.run_step, hfetch]
        exact ih _ hp
      · cases hp
    | _ => cases hp

/-- A value is put among the objects. -/
lemma put (h : x.Holds m) (v : Json) :
    ∃ y, (put v).runOn x = (.ok (Address.ofJson v), y) ∧
      y.Holds { m with objects := m.objects.put v } :=
  h.run (Storage.isComposed_put v).keepsOwn

/-- A value is not put again. -/
lemma put_of_has (h : x.Holds m) (hv : m.objects.Has (Address.ofJson v)) :
    (Storage.put v).runOn x = (.ok (Address.ofJson v), x) := by
  have hkeep : x.answer (.keep (Address.ofJson v) v.canonical) = (.ok (), x) := h.answer_keep hv
  rw [Storage.put]
  generalize Address.ofJson v = a at *
  refine (Procedure.run_bind answer (.request (.keep a v.canonical)) _ x).trans ?_
  rw [Procedure.request, Procedure.run_step, Procedure.run_done, hkeep]
  rfl

/-- Documents are put on a medium as in memory. -/
lemma putAll (h : x.Holds m) (vs : List Json) :
    (x.putAll vs).Holds { m with objects := m.objects.putAll vs } := by
  induction vs generalizing x m with
  | nil => exact h
  | cons v vs ih =>
    obtain ⟨y, hput, hy⟩ := h.put v
    rw [Medium.putAll, List.foldl_cons, hput]
    exact ih hy

end Holds

namespace IsNew

variable {vs : List Json}

/-- A new medium holds what has been put there. -/
lemma holds_putAll (h : x.IsNew) (vs : List Json) : (x.putAll vs).Holds ⟨Objects.putAll .empty vs, .empty⟩ :=
  h.holds.putAll vs

/-- A further document is put under its address. -/
lemma put (h : x.IsNew) (vs : List Json) (v : Json) :
    (put v).runOn (x.putAll vs) = (.ok (Address.ofJson v), x.putAll (vs ++ [v])) := by
  obtain ⟨y, hput, -⟩ := (h.holds_putAll vs).put v
  have hy : x.putAll (vs ++ [v]) = ((Storage.put v).runOn (x.putAll vs)).2 := putAll_append x vs [v]
  rw [hy, hput]

/-- Putting a document a second time changes nothing. -/
lemma putAll_again (h : x.IsNew) (hv : v ∈ vs) : x.putAll (vs ++ [v]) = x.putAll vs := by
  have hput := (h.holds_putAll vs).put_of_has (Objects.has_putAll .empty hv)
  rw [h.put] at hput
  exact congrArg Prod.snd hput

/-- A canonical document that has been put is read at its address. -/
lemma get (h : x.IsNew) (hv : v ∈ vs) (hcanonical : IsCanonical maxDepth v)
    (hno : NoCollision (vs.map Json.canonical)) :
    (get (Address.ofJson v)).runOn (x.putAll vs) = (.ok v, x.putAll vs) := by
  have hstored := Objects.stored_putAll (Objects.isAddressed_empty _) hno
    (fun w hw => List.mem_map_of_mem hw) hv
  exact (h.holds_putAll vs).runOn_of_reading? (Storage.reading?_get hcanonical le_rfl hstored)

/-- What an address leads to stays. -/
lemma fetch (h : x.IsNew) {a : Address} {c : String}
    (hfetch : ((x.putAll vs).answer (.fetch a)).1 = .ok c) (more : List Json) :
    (x.putAll (vs ++ more)).answer (.fetch a) = (.ok c, x.putAll (vs ++ more)) := by
  have hobjects : (Objects.putAll .empty vs).get? a.text = some c := by
    rw [(h.holds_putAll vs).answer_fetch, Objects.fetch] at hfetch
    split at hfetch
    · rename_i d hd
      cases hfetch
      exact hd
    · cases hfetch
  have hmore := Objects.grows_putAll _ more _ _ hobjects
  rw [← Objects.putAll_append] at hmore
  rw [(h.holds_putAll _).answer_fetch, Objects.fetch, hmore]

end IsNew

end Medium

/-! ## Content addressing -/

namespace Storage

/-- Canonical values read back from their text, different ones have different bytes, and texts of values
that are alike have the same bytes and one address. In a new store, whatever has been put into it, a value
that is put comes under its address, a value that has been put is not put again and is what its address
gives, and an address leads to the same whatever is put later. -/
theorem content_addressing :
    (∀ v, IsCanonical maxDepth v → Json.parse? v.canonical = some v) ∧
    (∀ s t v w, IsSpelled v s → IsSpelled w t → v.depth ≤ maxDepth → w.depth ≤ maxDepth →
      ∃ v' w', Json.parse? s = some v' ∧ Json.parse? t = some w' ∧
        (Digest.utf8 v'.canonical = Digest.utf8 w'.canonical ↔ Alike v w) ∧
        (Alike v w → Address.ofJson v' = Address.ofJson w')) ∧
    (∀ v w, IsCanonical maxDepth v → IsCanonical maxDepth w → v ≠ w →
      Digest.utf8 v.canonical ≠ Digest.utf8 w.canonical) ∧
    ∀ (x : Medium) (vs : List Json), x.IsNew →
      (∀ v, (put v).runOn (x.putAll vs) = (.ok (Address.ofJson v), x.putAll (vs ++ [v]))) ∧
      (∀ v ∈ vs, x.putAll (vs ++ [v]) = x.putAll vs) ∧
      (∀ v ∈ vs, IsCanonical maxDepth v → NoCollision (vs.map Json.canonical) →
        (get (Address.ofJson v)).runOn (x.putAll vs) = (.ok v, x.putAll vs)) ∧
      ∀ a c, ((x.putAll vs).answer (.fetch a)).1 = .ok c → ∀ more,
        (x.putAll (vs ++ more)).answer (.fetch a) = (.ok c, x.putAll (vs ++ more)) := by
  refine ⟨fun v hv => hv.parse? le_rfl, fun s t v w hs ht hv hw => ?_,
    fun v w hv hw hne h => hne (hv.eq_of_utf8 hw h), fun x vs hx => ?_⟩
  · refine ⟨_, _, Json.parse?_of_isSpelled hs hv, Json.parse?_of_isSpelled ht hw,
      Json.utf8_canonical_eq_iff hs ht hv hw, fun h => ?_⟩
    rw [h.normalize_eq]
  · exact ⟨hx.put vs, fun v hv => hx.putAll_again hv, fun v hv hcanonical hno => hx.get hv hcanonical hno,
      fun a c hfetch more => hx.fetch hfetch more⟩

/-! ## Two spellings of an object -/

/-- Fields in no order, of which one has a later one of its name. -/
def shuffled : Json := .obj [("b", .nat 1), ("a", .arr []), ("b", .bool true)]

/-- A document with its fields in order. -/
def ordered : Json := .obj [("a", .arr []), ("b", .bool true)]

/-- A text of the document with its fields in another order, one of them twice. -/
def shuffledText : String := "\x7b \"b\":1, \"a\":[ ], \"b\":true \x7d"

/-- A text of the document with an escaped character. -/
def escapedText : String := "\x7b\"\\u0061\":[],\"b\":true\x7d"

/-- A new directory. -/
def newDirectory : Medium := .directory ⟨.empty, .empty, .ofMillis 100 1000 3⟩

/-- The shuffled text is read as the shuffled document. -/
lemma read?_shuffledText : Json.read? shuffledText = some shuffled := by cbv

/-- The escaped text is read as the document. -/
lemma read?_escapedText : Json.read? escapedText = some ordered := by cbv

/-- The shuffled document is alike to the ordered one. -/
lemma alike_shuffled : Alike shuffled ordered := by
  rw [Json.alike_iff]
  rfl

/-- The ordered document is canonical. -/
lemma isCanonical_ordered : IsCanonical 2 ordered := by
  have hnames : ["a", "b"].Pairwise (· < ·) := by decide
  refine .record hnames rfl ?_
  simp only [List.forall_mem_cons]
  exact ⟨.arr nofun, .bool true, nofun⟩

/-- The address of null. -/
lemma ofJson_null : Address.ofJson .null =
    ⟨"74234e98afe7498fb5daf1f36ac2d78acc339464f950703b8c019892f982b90b"⟩ := by
  rw [Address.ofJson_eq]
  decide +kernel

/-- The address of the ordered document. -/
lemma ofJson_ordered : Address.ofJson ordered =
    ⟨"a1bfc8f178b855f5a687d2ad98b80acae206c9c48e7a27bbdc02f2ed75556bb3"⟩ := by
  rw [Address.ofJson_eq]
  decide +kernel

/-- The two documents do not collide. -/
lemma noCollision_ordered : NoCollision ([.null, ordered].map Json.canonical) := by
  refine noCollision_of_nodup ?_
  have haddresses : ([.null, ordered].map Json.canonical).map Address.ofText =
      [Address.ofJson .null, Address.ofJson ordered] := rfl
  rw [haddresses, ofJson_null, ofJson_ordered]
  decide

/-- An object with two spellings is put into an empty directory after another value. -/
theorem content_addressing_ordered :
    Json.parse? ordered.canonical = some ordered ∧
    (∃ v' w', Json.parse? shuffledText = some v' ∧ Json.parse? escapedText = some w' ∧
      Digest.utf8 v'.canonical = Digest.utf8 w'.canonical ∧ Address.ofJson v' = Address.ofJson w') ∧
    Digest.utf8 Json.null.canonical ≠ Digest.utf8 ordered.canonical ∧
    newDirectory.putAll [.null, ordered, ordered] = newDirectory.putAll [.null, ordered] ∧
    (get (Address.ofJson ordered)).runOn (newDirectory.putAll [.null, ordered]) =
      (.ok ordered, newDirectory.putAll [.null, ordered]) ∧
    ∃ c, ((newDirectory.putAll [.null]).answer (.fetch (Address.ofJson .null))).1 = .ok c ∧
      (newDirectory.putAll [.null, ordered]).answer (.fetch (Address.ofJson .null)) =
        (.ok c, newDirectory.putAll [.null, ordered]) := by
  obtain ⟨hparse, htexts, hbytes, hstore⟩ := content_addressing
  obtain ⟨hshuffled, hdepth⟩ := Json.read?_eq_some_iff.1 read?_shuffledText
  obtain ⟨hescaped, hdepth'⟩ := Json.read?_eq_some_iff.1 read?_escapedText
  have hnew : newDirectory.IsNew := .directory _
  have hcanonical : IsCanonical maxDepth ordered := isCanonical_ordered.mono (by decide)
  have hmem : ordered ∈ [.null, ordered] := List.mem_cons_of_mem _ List.mem_cons_self
  refine ⟨hparse _ hcanonical, ?_, hbytes _ _ .null hcanonical nofun, ?_, ?_, ?_⟩
  · obtain ⟨v', w', hv, hw, hiff, haddress⟩ := htexts _ _ _ _ hshuffled hescaped hdepth hdepth'
    exact ⟨v', w', hv, hw, hiff.2 alike_shuffled, haddress alike_shuffled⟩
  · exact (hstore newDirectory [.null, ordered] hnew).2.1 ordered hmem
  · exact (hstore newDirectory [.null, ordered] hnew).2.2.1 ordered hmem hcanonical noCollision_ordered
  · have hno : NoCollision ([Json.null].map Json.canonical) :=
      noCollision_ordered.mono (List.subset_append_left _ [ordered.canonical])
    have hstored : Stored (Objects.putAll .empty [.null]) .null :=
      Objects.stored_putAll (Objects.isAddressed_empty _) hno (fun w hw => List.mem_map_of_mem hw)
        List.mem_cons_self
    have hfetch : ((newDirectory.putAll [.null]).answer (.fetch (Address.ofJson .null))).1 =
        .ok Json.null.canonical := by
      rw [(hnew.holds_putAll [.null]).answer_fetch, Objects.fetch, hstored]
    exact ⟨_, hfetch, (hstore newDirectory [.null] hnew).2.2.2 _ _ hfetch [ordered]⟩

end Storage

end ProvenTables
