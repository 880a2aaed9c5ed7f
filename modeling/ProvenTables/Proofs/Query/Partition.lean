import ProvenTables.Proofs.Query.Arrangement
import ProvenTables.Proofs.Scalar.Text
import ProvenTables.Proofs.Storage.Replay
import ProvenTables.Proofs.Storage.Soundness

/-!
# Groups of replayed tables

Rows are grouped by the text of a cell. In a sound table all cells of a column have one type and no float is
infinite, so that cells have one text exactly if they are equal in the order of values (`render_eq_iff`): the
groups of a query are the classes of rows with equal cells (`select_grouped`).
-/

namespace ProvenTables.Query

open Sql

/-- Two rows have cells in a column that are equal in the order of values. -/
def HaveEqualCells (t : Table) (column : String) (m n : ℕ) : Prop :=
  ∃ x y, cell? t column m = some x ∧ cell? t column n = some y ∧ x.order y = .eq

variable {t : Table} {s : Select} {p : Plan}

/-- Cells of a column have one text exactly if they are equal. -/
lemma render_eq_iff (ht : t.IsSound) {c : String} {i m n : ℕ} (hc : t.position? c = some i)
    (hm : m < t.rows.length) (hn : n < t.rows.length) :
    (cell? t c m).map Scalar.render = (cell? t c n).map Scalar.render ↔ HaveEqualCells t c m n := by
  have hfits : ∀ r ∈ t.rows, Table.Fits t.columns r := fun r hr => (ht.row hr).fits
  obtain ⟨x, hx, hrowx, htypex⟩ := exists_cell? hfits hc hm
  obtain ⟨y, hy, hrowy, htypey⟩ := exists_cell? hfits hc hn
  have htype : x.type = y.type := Option.some.inj (htypex.symm.trans htypey)
  have hxfinite : x.IsFinite := (ht.row (rowAt_mem hm)).isFinite x (List.mem_of_getElem? hrowx)
  have hyfinite : y.IsFinite := (ht.row (rowAt_mem hn)).isFinite y (List.mem_of_getElem? hrowy)
  rw [hx, hy, Option.map_some, Option.map_some, Option.some_inj, Scalar.render_inj htype hxfinite hyfinite,
    ← Scalar.order_eq_eq_iff]
  constructor
  · exact fun h => ⟨x, y, hx, hy, h⟩
  · rintro ⟨x', y', hx', hy', h⟩
    rw [hx] at hx'
    rw [hy] at hy'
    cases hx'
    cases hy'
    exact h

/-- Places in table order are in the order of the answer if nothing else decides it. -/
lemma isArranged_self {places : List ℕ} (horder : s.orderBy = none) (hranking : s.ranking = none)
    (h : places.Pairwise (· < ·)) : IsArranged t s places places := by
  refine ⟨.refl _, h.imp fun {m n} hmn => ?_⟩
  simpa only [precedes, bySimilarity, byCell, horder, hranking, Option.bind_none, Ordering.eq_then] using
    compare_lt_iff_lt.2 hmn

/-- A query for groups of a replayed table is answered with the classes of matching rows with equal cells,
each in table order unless the query orders or ranks them. -/
theorem select_grouped {σ : Type} {answer : (r : Request) → σ → r.Answer × σ} {st : σ} {name : String}
    {address : Address} {g : String} (ht : ((Storage.replay name address).run answer st).1 = .ok t)
    (hplan : planOf t s = .ok p) (hindex : p.index? t = none) (hgroup : s.groupBy = some g)
    (hlimit : s.limit = none) :
    ∃ groups gs, IsGrouping (HaveEqualCells t g) (matching t s) groups ∧
      select t s = .ok ⟨p.outputNames t, .groups gs⟩ ∧
      List.Forall₂ (fun places rs => ∃ arranged, IsArranged t s places arranged ∧
        (s.orderBy = none → s.ranking = none → arranged = places) ∧
        AreProjected t p.output arranged rs) groups gs := by
  obtain ⟨-, hsound⟩ := (Storage.ensures_replay name address).of_run ht
  have hrows : ∀ r ∈ t.rows, Table.Fits t.columns r :=
    fun r hr => (hsound.row hr).fits
  obtain ⟨-, -, -, -, hgroupBy, -⟩ := planOf_eq_ok_iff.1 hplan
  rw [hgroup] at hgroupBy
  obtain ⟨i, -, hposition⟩ := locateOptional_some hgroupBy
  obtain ⟨groups, gs, htext, harranged, -, hrun⟩ := exists_groups hrows hplan hindex hgroup
  refine ⟨groups, gs, htext.congr fun m hm n hn => ?_, ?_, ?_⟩
  · exact render_eq_iff hsound hposition (lt_of_mem_matching hm) (lt_of_mem_matching hn)
  · rw [select, hplan]
    rw [hlimit] at hrun
    exact hrun
  · refine ((List.forall₂_and_left _ _).2 ⟨htext.increasing, harranged⟩).imp ?_
    rintro places rs ⟨hplaces, arranged, harranged, hprojected⟩
    exact ⟨arranged, harranged, fun horder hranking => harranged.eq (isArranged_self horder hranking hplaces),
      hprojected⟩

/-! ## Signed zeros -/

/-- The negative zero. -/
def minusZero : Binary64 := .ofMagnitude true 0

/-- A table with both zeros, which are equal as numbers and not as cells. -/
def zeros : Table where
  name := "zeros"
  columns := [⟨"x", .float⟩, ⟨"n", .int⟩]
  rows := [[.float minusZero, .int 1], [.float .zero, .int 2], [.float minusZero, .int 3]]
  indexes := .empty

/-- The history of that table. -/
def zerosHistory : History := ⟨[⟨⟨"chunk"⟩, ""⟩], [], none⟩

/-- A store with the table and its history, under addresses that are no digests. -/
def zerosMemory : Memory where
  objects := SortedMap.ofList [("chunk", (Chunk.single "zeros" (.ofTable zeros)).toJson.canonical),
    ("history", zerosHistory.toJson.canonical)]
  registry := .empty

/-- The numbers of the rows with each zero. -/
def byZero : Select := ⟨"zeros", .columns ["n"], none, some "x", none, none, none⟩

/-- The table with both zeros is sound. -/
lemma isSound_zeros : zeros.IsSound := by
  refine ⟨by decide, fun r hr => ?_⟩
  have hall : zeros.allRows = zeros.rows := rfl
  rw [hall] at hr
  refine ⟨?_, ?_⟩
  · revert r
    decide
  · simp only [zeros, List.mem_cons, List.not_mem_nil, or_false] at hr
    rcases hr with rfl | rfl | rfl <;> simp only [Row.IsFinite, Scalar.IsFinite, List.forall_mem_cons] <;>
      exact ⟨by decide, trivial, by simp⟩

open Storage Procedure in
/-- The table with both zeros is replayed from its history. -/
lemma replay_zeros : ((replay "zeros" ⟨"history"⟩).run Memory.answer zerosMemory).1 = .ok zeros := by
  have hencoded := Payload.isEncoded_ofTable zeros
  have hchunk : (get ⟨"chunk"⟩).reading? zerosMemory.objects =
      some (.ok (Chunk.single "zeros" (.ofTable zeros)).toJson) :=
    reading?_get_of_text (Chunk.isCanonical_toJson_single hencoded) (by decide) rfl
  have hhistory : (loadHistory ⟨"history"⟩).reading? zerosMemory.objects = some (.ok zerosHistory) :=
    reading?_loadHistory_of_text (by decide) rfl
  have htable : add "zeros" (.ofTable zeros) none = .ok zeros :=
    (Payload.toTable_ofTable isSound_zeros).2 ⟨by decide, rfl⟩
  have hentries : (replayEntries "zeros" none zerosHistory.entries).reading? zerosMemory.objects =
      some (.ok (some zeros)) := by
    refine (reading?_bind_ok hchunk).trans ?_
    rw [replayChunk_single hencoded, htable]
    rfl
  rw [run_of_reading? (reading?_replay_eq_ok_iff.2 ⟨_, hhistory, hentries⟩)]

/-- Zeros of different sign are in different groups, and those of one sign are in one. -/
theorem select_grouped_zeros :
    ((Storage.replay "zeros" ⟨"history"⟩).run Memory.answer zerosMemory).1 = .ok zeros ∧
      select zeros byZero = .ok ⟨["n"], .groups [[[.int 1], [.int 3]], [[.int 2]]]⟩ ∧
      ∃ groups, IsGrouping (HaveEqualCells zeros "x") [0, 1, 2] groups ∧ groups.length = 2 := by
  have hplan : planOf zeros byZero = .ok ⟨[1], none, none, some 0, none, none⟩ := rfl
  have hselect : select zeros byZero = .ok ⟨["n"], .groups [[[.int 1], [.int 3]], [[.int 2]]]⟩ := by
    decide +kernel
  obtain ⟨groups, gs, hgrouping, hgs, hforall⟩ := select_grouped replay_zeros hplan rfl rfl rfl
  rw [hselect] at hgs
  cases hgs
  exact ⟨replay_zeros, hselect, groups, hgrouping, hforall.length_eq⟩

end ProvenTables.Query
