import Mathlib.Data.List.Nodup
import Mathlib.Tactic
import ProvenTables.Query.Plan

/-!
# Groups of rows

Rows are put one after the other into the group of their key. What comes out are the keys in the order in
which they first occur, each with all its rows (`groupRows_eq`). By the places of their rows, these groups
partition the places (`isGrouping_groupsOf`).
-/

namespace ProvenTables.Query

/-! ## Slots -/

/-- Keys without repetitions are different. -/
lemma nodup_eraseDups {κ : Type} [DecidableEq κ] (keys : List κ) : keys.eraseDups.Nodup := by
  induction hn : keys.length using Nat.strong_induction_on generalizing keys with
  | _ n ih =>
    cases keys with
    | nil => exact List.nodup_nil
    | cons k ks =>
      rw [List.eraseDups_cons, List.nodup_cons, List.mem_eraseDups]
      refine ⟨by simp, ih _ ?_ _ rfl⟩
      rw [← hn, List.length_cons]
      exact Nat.lt_succ_of_le (List.length_filter_le _ _)

/-- A key that occurs once more stays where it first occurred, and a new key is the last. -/
lemma eraseDups_concat {κ : Type} [DecidableEq κ] (keys : List κ) (k : κ) :
    (keys ++ [k]).eraseDups = if k ∈ keys then keys.eraseDups else keys.eraseDups ++ [k] := by
  rw [List.eraseDups_append]
  by_cases hk : k ∈ keys <;> simp [List.removeAll, hk, List.eraseDups_cons]

/-- A row joins the rows of its key, which are the last if there were none. -/
lemma addToGroup_map {keys : List String} {g : String → List Row} (hkeys : keys.Nodup) {key : String}
    (hnew : key ∉ keys → g key = []) (r : Row) :
    addToGroup key r (keys.map fun k => (k, g k)) =
      (if key ∈ keys then keys else keys ++ [key]).map fun k => (k, if k = key then g k ++ [r] else g k) := by
  induction keys with
  | nil => simp [addToGroup, hnew List.not_mem_nil]
  | cons k ks ih =>
    obtain ⟨hk, hks⟩ := List.nodup_cons.1 hkeys
    rw [List.map_cons, addToGroup]
    by_cases heq : k = key
    · subst heq
      have hothers : ks.map (fun j => (j, if j = k then g j ++ [r] else g j)) = ks.map fun j => (j, g j) :=
        List.map_congr_left fun j hj => by rw [if_neg fun h : j = k => hk (h ▸ hj)]
      rw [if_pos rfl, if_pos List.mem_cons_self, List.map_cons, hothers, if_pos rfl]
    · have hmem : key ∈ k :: ks ↔ key ∈ ks := by simp [Ne.symm heq]
      rw [if_neg heq, ih hks fun h => hnew (hmem.not.2 h)]
      by_cases h : key ∈ ks <;> simp [h, heq, Ne.symm heq]

/-- The groups are the keys in the order in which they first occur, each with its rows. -/
theorem groupRows_eq (position : ℕ) (rows : List Row) :
    groupRows position rows =
      (rows.map (groupKey position)).eraseDups.map fun k => rows.filter (groupKey position · = k) := by
  suffices hslots : rows.foldl (fun gs r => addToGroup (groupKey position r) r gs) [] =
      (rows.map (groupKey position)).eraseDups.map fun k => (k, rows.filter (groupKey position · = k)) by
    rw [groupRows, hslots, List.map_map]
    rfl
  induction rows using List.reverseRecOn with
  | nil => rfl
  | append_singleton rows r ih =>
    have hnew : groupKey position r ∉ (rows.map (groupKey position)).eraseDups →
        rows.filter (groupKey position · = groupKey position r) = [] := by
      intro h
      refine List.filter_eq_nil_iff.2 fun q hq hkey => h (List.mem_eraseDups.2 ?_)
      exact List.mem_map.2 ⟨q, hq, of_decide_eq_true hkey⟩
    rw [List.foldl_append, List.foldl_cons, List.foldl_nil, ih, addToGroup_map (nodup_eraseDups _) hnew,
      List.map_append, List.map_singleton, eraseDups_concat]
    simp only [List.mem_eraseDups]
    refine List.map_congr_left fun k _ => ?_
    by_cases hk : k = groupKey position r
    · simp [hk]
    · simp [hk, Ne.symm hk]

/-! ## Partitions -/

/-- Groups that partition places into those that are alike. The places in a group increase, and so do the
first places of the groups. -/
structure IsGrouping (alike : ℕ → ℕ → Prop) (places : List ℕ) (groups : List (List ℕ)) : Prop where
  nonempty : ∀ g ∈ groups, g ≠ []
  perm : groups.flatten.Perm places
  together : ∀ m ∈ places, ∀ n ∈ places, (∃ g ∈ groups, m ∈ g ∧ n ∈ g) ↔ alike m n
  increasing : ∀ g ∈ groups, g.Pairwise (· < ·)
  ordered : groups.Pairwise fun g h => ∀ m ∈ g.head?, ∀ n ∈ h.head?, m < n

variable {alike : ℕ → ℕ → Prop} {places : List ℕ} {groups : List (List ℕ)}

/-- A grouping depends only on which places are alike. -/
lemma IsGrouping.congr {alike' : ℕ → ℕ → Prop} (h : IsGrouping alike places groups)
    (hiff : ∀ m ∈ places, ∀ n ∈ places, alike m n ↔ alike' m n) : IsGrouping alike' places groups :=
  { h with together := fun m hm n hn => (h.together m hm n hn).trans (hiff m hm n hn) }

/-- The places of a group are among all places. -/
lemma IsGrouping.subset (h : IsGrouping alike places groups) {g : List ℕ} (hg : g ∈ groups) : g ⊆ places :=
  fun _ hn => h.perm.subset (List.mem_flatten_of_mem hg hn)

section Keys

variable {κ : Type} [DecidableEq κ] {key : ℕ → κ}

/-- The first place with all places of its key goes before the groups of the places after it. -/
lemma IsGrouping.cons {n : ℕ} {ns : List ℕ} (hn : (n :: ns).Pairwise (· < ·))
    (h : IsGrouping (fun i j => key i = key j) (ns.filter (key · ≠ key n)) groups) :
    IsGrouping (fun i j => key i = key j) (n :: ns) ((n :: ns.filter (key · = key n)) :: groups) := by
  obtain ⟨hlt, hns⟩ := List.pairwise_cons.1 hn
  -- the first group has all places with the key of `n`, and the other groups have the rest
  have hfirst : ∀ i, i ∈ n :: ns.filter (key · = key n) ↔ i ∈ n :: ns ∧ key i = key n := by
    intro i
    by_cases hi : i = n <;> simp [hi]
  have hrest : ∀ i, i ∈ ns.filter (key · ≠ key n) ↔ i ∈ n :: ns ∧ key i ≠ key n := by
    intro i
    by_cases hi : i = n <;> simp [hi]
  refine ⟨?_, ?_, ?_, ?_, ?_⟩
  · exact List.forall_mem_cons.2 ⟨List.cons_ne_nil _ _, h.nonempty⟩
  · have hfilter := List.filter_append_perm (key · = key n) ns
    simp only [← decide_not] at hfilter
    rw [List.flatten_cons, List.cons_append]
    exact ((h.perm.append_left _).trans hfilter).cons n
  · intro i hi j hj
    constructor
    · rintro ⟨g, hg, hig, hjg⟩
      rcases List.mem_cons.1 hg with rfl | hg
      · exact ((hfirst i).1 hig).2.trans ((hfirst j).1 hjg).2.symm
      · exact (h.together i (h.subset hg hig) j (h.subset hg hjg)).1 ⟨g, hg, hig, hjg⟩
    · intro hkey
      by_cases hin : key i = key n
      · exact ⟨_, List.mem_cons_self, (hfirst i).2 ⟨hi, hin⟩, (hfirst j).2 ⟨hj, hkey.symm.trans hin⟩⟩
      · have hjn : key j ≠ key n := fun hjn => hin (hkey.trans hjn)
        obtain ⟨g, hg, hmem⟩ := (h.together i ((hrest i).2 ⟨hi, hin⟩) j ((hrest j).2 ⟨hj, hjn⟩)).2 hkey
        exact ⟨g, List.mem_cons_of_mem _ hg, hmem⟩
  · refine List.forall_mem_cons.2 ⟨List.pairwise_cons.2 ⟨fun i hi => ?_, hns.filter _⟩, h.increasing⟩
    exact hlt i (List.mem_of_mem_filter hi)
  · refine List.pairwise_cons.2 ⟨fun g hg i hi j hj => ?_, h.ordered⟩
    obtain rfl : n = i := Option.some.inj hi
    exact hlt j (List.mem_of_mem_filter (h.subset hg (List.mem_of_mem_head? hj)))

/-- The keys of places in the order in which they first occur, each with its places. -/
def groupsOf (key : ℕ → κ) (places : List ℕ) : List (List ℕ) :=
  (places.map key).eraseDups.map fun k => places.filter (key · = k)

/-- The first place opens a group with all places of its key. -/
lemma groupsOf_cons (key : ℕ → κ) (n : ℕ) (ns : List ℕ) :
    groupsOf key (n :: ns) =
      (n :: ns.filter (key · = key n)) :: groupsOf key (ns.filter (key · ≠ key n)) := by
  have hkeys : (ns.map key).filter (fun k => !k == key n) = (ns.filter (key · ≠ key n)).map key := by
    rw [List.filter_map]
    refine congrArg (List.map key) (List.filter_congr fun i _ => ?_)
    simp only [Function.comp_apply, ne_eq, decide_not]
    rfl
  rw [groupsOf, List.map_cons, List.eraseDups_cons, List.map_cons, hkeys, groupsOf]
  congr 1
  · simp
  · refine List.map_congr_left fun k hk => ?_
    obtain ⟨i, hi, rfl⟩ := List.mem_map.1 (List.mem_eraseDups.1 hk)
    have hne : key i ≠ key n := of_decide_eq_true (List.mem_filter.1 hi).2
    rw [List.filter_cons_of_neg (by simpa using hne.symm), List.filter_filter]
    refine List.filter_congr fun j _ => ?_
    by_cases hj : key j = key i <;> simp [hj, hne]

/-- Places in table order are partitioned by their keys. -/
theorem isGrouping_groupsOf (key : ℕ → κ) (h : places.Pairwise (· < ·)) :
    IsGrouping (fun i j => key i = key j) places (groupsOf key places) := by
  induction hn : places.length using Nat.strong_induction_on generalizing places with
  | _ n ih =>
    cases places with
    | nil => exact ⟨by simp [groupsOf], .refl _, by simp, by simp [groupsOf], .nil⟩
    | cons i is =>
      rw [groupsOf_cons]
      refine .cons h (ih _ ?_ ((List.pairwise_cons.1 h).2.filter _) rfl)
      rw [← hn, List.length_cons]
      exact Nat.lt_succ_of_le (List.length_filter_le _ _)

end Keys

/-- Rows at places are grouped as the places are. -/
lemma groupRows_map (position : ℕ) (row : ℕ → Row) (places : List ℕ) :
    groupRows position (places.map row) =
      (groupsOf (fun n => groupKey position (row n)) places).map (·.map row) := by
  rw [groupRows_eq, groupsOf, List.map_map, List.map_map]
  refine List.map_congr_left fun k _ => ?_
  rw [List.filter_map]
  rfl

end ProvenTables.Query
