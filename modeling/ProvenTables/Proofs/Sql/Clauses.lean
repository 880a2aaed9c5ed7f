import ProvenTables.Proofs.Sql.Keywords

/-!
# Clauses

The clauses of a text that consists of them are located in it, whatever their bodies are, as long as a
search for a keyword goes past each body; and the bodies are taken into a `SELECT` one after the other.
-/

namespace ProvenTables.Sql

open Text

/-- The text of clauses with their bodies, with a space before each. -/
def clausesText : List (Clause × List Char) → List Char
  | [] => []
  | (c, body) :: rest => ' ' :: (c.keyword.toList ++ ' ' :: (body ++ clausesText rest))

/-- The places of clauses in a text in which the first one stands at the given place. -/
def clausePlaces : ℕ → List (Clause × List Char) → List (ℕ × Clause)
  | _, [] => []
  | n, (c, body) :: rest => (n, c) :: clausePlaces (n + (c.keyword.length + 1 + body.length + 1)) rest

/-- Whether a text that comes after a word does not make the word the first one of a keyword. -/
def Blocks (rest : List Char) : Prop :=
  endsWord rest = true ∧ ∀ r, rest ≠ " BY".toList ++ r ∧ rest ≠ " SIMILARITY".toList ++ r

/-- Whether a text can be the body of a clause. -/
structure IsBody (body : List Char) : Prop where
  text : IsText (fun _ => True) body
  passes : ∀ (K : Clause) (rest), Blocks rest → Passes K.keyword.toList body rest

/-- Whether a text can be a word of the body of a clause. -/
def IsArgument (w : List Char) : Prop :=
  (∀ c ∈ w.head?, c.isAlpha = false) ∨ IsUnbroken w ∧ w ≠ "WHERE".toList ∧ w ≠ "LIMIT".toList

variable {w a b rest : List Char}

/-! ## Bodies -/

/-- A word that starts with no letter is passed without finding the words of a clause. -/
lemma passes_of_head (K : Clause) (hw : IsWord w) (hhead : ∀ c ∈ w.head?, c.isAlpha = false)
    (rest : List Char) : Passes K.keyword.toList w rest := by
  obtain ⟨c, w', rfl⟩ := List.exists_cons_of_ne_nil hw.sharp.ne_nil
  exact passes_word (isKeyword_keyword K) hw (beginsWith_cons_eq_false (isKeyword_keyword K) (hhead c rfl))

/-- An argument is passed without finding the words of a clause. -/
lemma passes_argument (K : Clause) (hw : IsWord w) (ha : IsArgument w) (hrest : Blocks rest) :
    Passes K.keyword.toList w rest := by
  rcases ha with hhead | ⟨hunbroken, hwhere, hlimit⟩
  · exact passes_of_head K hw hhead rest
  · have htwo : ∀ first second : List Char, IsUnbroken first → (∀ r, rest ≠ ' ' :: (second ++ r)) →
        beginsWith (first ++ ' ' :: second) (w ++ rest) = false := by
      intro first second hfirst hsecond
      rw [Bool.eq_false_iff, ne_eq, beginsWith_iff]
      rintro ⟨r, h, -⟩
      rw [List.append_assoc] at h
      exact hsecond r (eq_of_append_eq hunbroken hfirst hrest.1 rfl h).2
    refine passes_word (isKeyword_keyword K) hw ?_
    cases K with
    | «where» => exact beginsWith_eq_false hunbroken (by decide) hrest.1 hwhere
    | limit => exact beginsWith_eq_false hunbroken (by decide) hrest.1 hlimit
    | groupBy => exact htwo "GROUP".toList "BY".toList (by decide) fun r => (hrest.2 r).1
    | orderBy => exact htwo "ORDER".toList "BY".toList (by decide) fun r => (hrest.2 r).1
    | similarity => exact htwo "COSINE".toList "SIMILARITY".toList (by decide) fun r => (hrest.2 r).2

/-- An argument is a body. -/
lemma isBody_argument (hw : IsWord w) (ha : IsArgument w) : IsBody w :=
  ⟨hw.mono fun _ _ => trivial, fun K _ hrest => passes_argument K hw ha hrest⟩

/-- A word before the body of a clause. -/
lemma IsBody.spaced (hw : IsWord w)
    (hpasses : ∀ (K : Clause) (r), Passes K.keyword.toList w (' ' :: (b ++ r))) (hb : IsBody b) :
    IsBody (w ++ ' ' :: b) where
  text := (hw.mono fun _ _ => trivial).spaced trivial hb.text
  passes K rest hrest := (hpasses K rest).spaced (isKeyword_keyword K) (hb.passes K rest hrest)

/-- The words of a clause are a text. -/
lemma isText_keyword (c : Clause) : IsText (fun _ => True) c.keyword.toList := by
  have hword : ∀ w : List Char, w ≠ [] → (∀ c ∈ w, IsPlain c ∧ isBlank c = false ∧ c ≠ ';' ∧ True) →
    IsText (fun _ => True) w := fun _ => IsText.of_forall
  cases c with
  | «where» => exact hword _ (by decide) (by decide)
  | limit => exact hword _ (by decide) (by decide)
  | groupBy =>
    exact (hword "GROUP".toList (by decide) (by decide)).spaced trivial
      (hword "BY".toList (by decide) (by decide))
  | orderBy =>
    exact (hword "ORDER".toList (by decide) (by decide)).spaced trivial
      (hword "BY".toList (by decide) (by decide))
  | similarity =>
    exact (hword "COSINE".toList (by decide) (by decide)).spaced trivial
      (hword "SIMILARITY".toList (by decide) (by decide))

/-- A text with clauses behind it. -/
lemma isText_clausesText {segs : List (Clause × List Char)} (h : ∀ s ∈ segs, IsBody s.2)
    (ha : IsText (fun _ => True) a) : IsText (fun _ => True) (a ++ clausesText segs) := by
  induction segs generalizing a with
  | nil => simpa [clausesText] using ha
  | cons seg segs ih =>
    obtain ⟨c, body⟩ := seg
    obtain ⟨hbody, hsegs⟩ := List.forall_mem_cons.1 h
    simpa [clausesText] using ih hsegs ((ha.spaced trivial (isText_keyword c)).spaced trivial hbody.text)

/-! ## Places -/

/-- Where clauses follow a word ends. -/
lemma blocks_clausesText (segs : List (Clause × List Char)) : Blocks (clausesText segs) := by
  cases segs with
  | nil => exact ⟨rfl, fun r => ⟨nofun, nofun⟩⟩
  | cons seg segs =>
    obtain ⟨c, body⟩ := seg
    refine ⟨rfl, fun r => ?_⟩
    cases c <;> simp [clausesText, Clause.keyword]

/-- The words of a clause are found where the clause starts. -/
lemma placesFrom_keyword (K c : Clause) (n : ℕ) (rest : List Char) :
    placesFrom K.keyword.toList n .top true (c.keyword.toList ++ ' ' :: rest) =
      (if c = K then [n] else []) ++
        placesFrom K.keyword.toList (n + c.keyword.length) .top false (' ' :: rest) := by
  cases K <;> cases c <;> rfl

/-- The places of a clause in a text that begins with a clause are its place and those behind it. -/
lemma placesFrom_clause (K c : Clause) (hb : IsBody b) (hrest : Blocks rest) (n : ℕ) :
    placesFrom K.keyword.toList n .top true (c.keyword.toList ++ ' ' :: (b ++ rest)) =
      (if c = K then [n] else []) ++
        placesFrom K.keyword.toList (n + (c.keyword.length + 1 + b.length)) .top false rest := by
  rw [placesFrom_keyword, placesFrom_space (isKeyword_keyword K), hb.passes K rest hrest]
  simp only [Nat.add_assoc]

/-- The words of a clause are found at the places of its segments. -/
lemma placesFrom_clausesText (K : Clause) {segs : List (Clause × List Char)}
    (h : ∀ s ∈ segs, IsBody s.2) (n : ℕ) :
    placesFrom K.keyword.toList n .top false (clausesText segs) =
      ((clausePlaces (n + 1) segs).filter (·.2 = K)).map (·.1) := by
  induction segs generalizing n with
  | nil => rfl
  | cons seg segs ih =>
    obtain ⟨c, body⟩ := seg
    obtain ⟨hbody, hsegs⟩ := List.forall_mem_cons.1 h
    rw [clausesText, placesFrom_space (isKeyword_keyword K),
      placesFrom_clause K c hbody (blocks_clausesText segs), ih hsegs, clausePlaces, List.filter_cons]
    split <;> simp_all [Nat.add_assoc]

/-- A word is found before the end. -/
lemma lt_of_mem_placesFrom {K cs : List Char} {s : Nesting} {fresh : Bool} {n k : ℕ}
    (h : k ∈ placesFrom K n s fresh cs) : k < n + cs.length := by
  induction cs generalizing n s fresh with
  | nil => cases h
  | cons c cs ih =>
    rcases List.mem_append.1 h with h | h
    · split at h
      · rw [List.mem_singleton.1 h, List.length_cons]
        omega
      · cases h
    · have := ih h
      rw [List.length_cons]
      omega

/-- A traversal that adds what each item gives. -/
lemma foldlM_eq_append {α β ε : Type} {step : List β → α → Except ε (List β)} {f : α → List β}
    {as : List α} (h : ∀ a ∈ as, ∀ found, step found a = .ok (found ++ f a)) (found : List β) :
    as.foldlM step found = .ok (found ++ as.flatMap f) := by
  induction as generalizing found with
  | nil =>
    rw [List.flatMap_nil, List.append_nil]
    rfl
  | cons a as ih =>
    obtain ⟨ha, has⟩ := List.forall_mem_cons.1 h
    rw [List.foldlM_cons, ha, List.flatMap_cons, ← List.append_assoc]
    exact ih has _

/-- Items that come in the order of their kinds are found kind by kind. -/
lemma flatMap_filter_of_sublist {α β : Type} [DecidableEq α] {f : β → α} {all : List α} {l : List β}
    (hl : (l.map f).Sublist all) (hall : all.Nodup) : all.flatMap (fun a => l.filter (f · = a)) = l := by
  generalize hm : l.map f = m at hl
  induction hl generalizing l with
  | slnil => simpa using hm
  | @cons m all a hsub ih =>
    -- no item is of the first kind
    obtain ⟨ha, hrest⟩ := List.nodup_cons.1 hall
    have hnone : l.filter (f · = a) = [] := by
      rw [List.filter_eq_nil_iff]
      intro x hx hxa
      exact ha (hsub.subset (hm ▸ of_decide_eq_true hxa ▸ List.mem_map_of_mem hx))
    rw [List.flatMap_cons, hnone, ih hrest hm, List.nil_append]
  | @cons_cons m all a hsub ih =>
    -- the first item is the only one of the first kind
    obtain ⟨ha, hrest⟩ := List.nodup_cons.1 hall
    obtain ⟨x, l, rfl, rfl, rfl⟩ := List.map_eq_cons_iff.1 hm
    have hfirst : (x :: l).filter (f · = f x) = [x] := by
      rw [List.filter_cons_of_pos (by simp), List.filter_eq_nil_iff.2 fun y hy hyx => ?_]
      exact ha (hsub.subset (of_decide_eq_true hyx ▸ List.mem_map_of_mem hy))
    have hothers : all.flatMap (fun a => (x :: l).filter (f · = a)) =
        all.flatMap fun a => l.filter (f · = a) := by
      refine List.flatMap_congr fun b hb => ?_
      exact List.filter_cons_of_neg fun hxb => ha (of_decide_eq_true hxb ▸ hb)
    rw [List.flatMap_cons, hfirst, hothers, ih hrest rfl, List.singleton_append]

/-- Every segment has a place, with its clause. -/
lemma map_clausePlaces (n : ℕ) (segs : List (Clause × List Char)) :
    (clausePlaces n segs).map (·.2) = segs.map (·.1) := by
  induction segs generalizing n with
  | nil => rfl
  | cons seg segs ih => rw [clausePlaces, List.map_cons, List.map_cons, ih]

variable {segs : List (Clause × List Char)}

/-- The words of a clause are found without the blank in front of the first one. -/
lemma placesFrom_drop (K : Clause) (h : ∀ s ∈ segs, IsBody s.2) :
    placesFrom K.keyword.toList 0 .top true ((clausesText segs).drop 1) =
      ((clausePlaces 0 segs).filter (·.2 = K)).map (·.1) := by
  cases segs with
  | nil => rfl
  | cons seg segs =>
    obtain ⟨c, body⟩ := seg
    obtain ⟨hbody, hsegs⟩ := List.forall_mem_cons.1 h
    rw [clausesText, List.drop_one, List.tail_cons, placesFrom_clause K c hbody (blocks_clausesText segs),
      placesFrom_clausesText K hsegs, clausePlaces, List.filter_cons]
    split <;> simp_all [Nat.add_assoc]

/-- Every clause of a text of clauses is located. -/
theorem locateClauses_eq (h : ∀ s ∈ segs, IsBody s.2) (hsub : (segs.map (·.1)).Sublist Clause.all) :
    locateClauses ((clausesText segs).drop 1) = .ok (clausePlaces 0 segs) := by
  have hkinds : ((clausePlaces 0 segs).map (·.2)).Sublist Clause.all := map_clausePlaces 0 segs ▸ hsub
  have hnodup : Clause.all.Nodup := by decide
  rw [locateClauses, foldlM_eq_append (f := fun K => (clausePlaces 0 segs).filter (·.2 = K)),
    flatMap_filter_of_sublist hkinds hnodup, List.nil_append]
  intro K _ found
  have hplaces := placesFrom_drop K h
  -- no clause is there twice
  have hone : ((clausePlaces 0 segs).filter (·.2 = K)).length ≤ 1 := by
    have hcount := List.nodup_iff_count_le_one.1 (hnodup.sublist hkinds) K
    rwa [List.count_eq_length_filter, List.filter_map, List.length_map] at hcount
  rw [countWord, countWordFrom_eq _ 0, splitAtWord?, splitAtWordFrom?_eq, hplaces]
  cases hl : (clausePlaces 0 segs).filter (·.2 = K) with
  | nil => simp
  | cons x l =>
    rw [hl, List.length_cons] at hone
    obtain rfl : l = [] := List.eq_nil_of_length_eq_zero (by omega)
    obtain ⟨n, c⟩ := x
    have hmem : (n, c) ∈ (clausePlaces 0 segs).filter (·.2 = K) := hl ▸ List.mem_singleton_self _
    have hc : c = K := of_decide_eq_true (List.mem_filter.1 hmem).2
    have hn : n < 0 + ((clausesText segs).drop 1).length :=
      lt_of_mem_placesFrom (hplaces ▸ List.mem_map_of_mem hmem)
    have hbefore : (((clausesText segs).drop 1).take n).length = n := List.length_take_of_le (by omega)
    simp only [List.map_cons, List.map_nil, List.length_singleton, List.head?_cons, Option.map_some,
      hbefore, hc]

/-! ## Bodies in order -/

/-- The places of segments are in order. -/
lemma inOrder_clausePlaces (n : ℕ) (segs : List (Clause × List Char)) :
    inOrder (clausePlaces n segs) = true := by
  induction segs generalizing n with
  | nil => rfl
  | cons seg segs ih =>
    cases segs with
    | nil => rfl
    | cons seg' segs =>
      have hlt : n < n + (seg.1.keyword.length + 1 + seg.2.length + 1) := by omega
      simpa [clausePlaces, inOrder, hlt] using ih _

/-- What is cut out between a keyword and the next clause, or the end. -/
lemma trim_body {pre K body z r : List Char} (h : IsSharp body) (hz : ∀ c ∈ z, isBlank c = true) :
    trim (((pre ++ (K ++ ' ' :: (body ++ (z ++ r)))).take
      (pre.length + (K.length + 1 + body.length) + z.length)).drop (pre.length + K.length)) = body := by
  have hcut : ((pre ++ (K ++ ' ' :: (body ++ (z ++ r)))).take
      (pre.length + (K.length + 1 + body.length) + z.length)).drop (pre.length + K.length) =
        [' '] ++ (body ++ z) := by
    have htext : pre ++ (K ++ ' ' :: (body ++ (z ++ r))) = (pre ++ K) ++ (([' '] ++ (body ++ z)) ++ r) := by
      simp
    have hlength : pre.length + (K.length + 1 + body.length) + z.length =
        (pre ++ K).length + ([' '] ++ (body ++ z)).length := by
      simp only [List.length_append, List.length_singleton]
      omega
    rw [htext, hlength, List.take_length_add_append, List.take_left, ← List.length_append, List.drop_left]
  rw [hcut, trim_append h.isTrimmed (by decide) hz]

/-- The body of a clause goes from the end of its words to the next clause. -/
lemma addClauses_cons (text : List Char) (s : Select) (n : ℕ) (c : Clause) (rest : List (ℕ × Clause)) :
    addClauses text s ((n, c) :: rest) =
      addClause s c (trim ((text.take ((rest.head?.map (·.1)).getD text.length)).drop
        (n + c.keyword.length))) >>= (addClauses text · rest) := by
  cases rest <;> rfl

/-- The clauses at their places give the bodies that follow the keywords. -/
lemma addClauses_eq {text : List Char} {n : ℕ} {s : Select} (h : ∀ s ∈ segs, IsSharp s.2)
    (htext : text.drop n = (clausesText segs).drop 1) :
    addClauses text s (clausePlaces n segs) = segs.foldlM (fun s seg => addClause s seg.1 seg.2) s := by
  induction segs generalizing n s with
  | nil => rfl
  | cons seg segs ih =>
    obtain ⟨c, body⟩ := seg
    obtain ⟨hbody, hsegs⟩ := List.forall_mem_cons.1 h
    have hdrop : text.drop n = c.keyword.toList ++ ' ' :: (body ++ clausesText segs) := htext
    have hn : n ≤ text.length := by
      by_contra! hlt
      simp [List.drop_eq_nil_iff.2 hlt.le] at hdrop
    obtain ⟨pre, hwhole, rfl⟩ : ∃ pre,
        text = pre ++ (c.keyword.toList ++ ' ' :: (body ++ clausesText segs)) ∧ pre.length = n :=
      ⟨text.take n, by rw [← hdrop, List.take_append_drop], List.length_take_of_le hn⟩
    have hnext : text.drop (pre.length + (c.keyword.length + 1 + body.length + 1)) =
        (clausesText segs).drop 1 := by
      have hlength : c.keyword.length + 1 + body.length + 1 =
          c.keyword.toList.length + ((body.length + 1) + 1) := by
        rw [String.length_toList]
        omega
      rw [hwhole, List.drop_length_add_append, hlength, List.drop_length_add_append, List.drop_succ_cons,
        List.drop_length_add_append]
    -- between the body and the next clause, or the end, there are at most blanks
    obtain ⟨z, r, hz, htail, hstop⟩ : ∃ z r, (∀ c ∈ z, isBlank c = true) ∧ clausesText segs = z ++ r ∧
        ((clausePlaces (pre.length + (c.keyword.length + 1 + body.length + 1)) segs).head?.map (·.1)).getD
          text.length = pre.length + (c.keyword.toList.length + 1 + body.length) + z.length := by
      cases segs with
      | nil =>
        refine ⟨[], [], by simp, rfl, ?_⟩
        simp [hwhole, clausePlaces, clausesText, Nat.add_assoc, Nat.add_comm 1]
      | cons seg segs => exact ⟨[' '], (clausesText (seg :: segs)).drop 1, by decide, rfl, rfl⟩
    have htrim : trim ((text.take (((clausePlaces (pre.length + (c.keyword.length + 1 + body.length + 1))
        segs).head?.map (·.1)).getD text.length)).drop (pre.length + c.keyword.length)) = body := by
      rw [hstop, hwhole, htail, ← String.length_toList]
      exact trim_body hbody hz
    rw [clausePlaces, addClauses_cons, htrim, List.foldlM_cons]
    exact bind_congr fun s => ih hsegs hnext

end ProvenTables.Sql
