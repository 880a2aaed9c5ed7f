import ProvenTables.Proofs.Digest

/-!
# Evaluation of digests

The address of a value is computed with numbers for words, and without taking texts apart whose characters
stand for themselves. Both give the same address and are quick to evaluate, so that the addresses of examples
can be decided.
-/

namespace ProvenTables

namespace Digest

/-! ## Words as numbers -/

/-- The sum of two words. -/
def plus (x y : ℕ) : ℕ := Nat.mod (Nat.add x y) 4294967296

/-- A word turned to the right. -/
def turn (x n : ℕ) : ℕ :=
  Nat.lor (Nat.shiftRight x n) (Nat.mod (Nat.shiftLeft x (Nat.sub 32 n)) 4294967296)

/-- The bitwise sum of three words. -/
def parity (x y z : ℕ) : ℕ := Nat.xor (Nat.xor x y) z

/-- The bits of the second word where the first has ones, and those of the third elsewhere. -/
def choice (x y z : ℕ) : ℕ := Nat.xor (Nat.land x y) (Nat.land (Nat.sub 4294967295 x) z)

/-- The bits that at least two of three words have. -/
def majority (x y z : ℕ) : ℕ := parity (Nat.land x y) (Nat.land x z) (Nat.land y z)

/-- The words of a state. -/
structure Numbers where
  a : ℕ
  b : ℕ
  c : ℕ
  d : ℕ
  e : ℕ
  f : ℕ
  g : ℕ
  h : ℕ

/-- The words of a state as numbers. -/
def State.numbers (s : State) : Numbers :=
  ⟨s.a.toNat, s.b.toNat, s.c.toNat, s.d.toNat, s.e.toNat, s.f.toNat, s.g.toNat, s.h.toNat⟩

namespace Numbers

/-- The numbers of a state in the order of its words. -/
def words (s : Numbers) : List ℕ := [s.a, s.b, s.c, s.d, s.e, s.f, s.g, s.h]

/-- The sum of two states, number by number. -/
def add (s t : Numbers) : Numbers :=
  ⟨plus s.a t.a, plus s.b t.b, plus s.c t.c, plus s.d t.d, plus s.e t.e, plus s.f t.f, plus s.g t.g,
    plus s.h t.h⟩

/-- The next word of a schedule from those before it, the last one first. -/
def nextWord (recent : List ℕ) : ℕ :=
  let w15 := recent.getD 14 0
  let w2 := recent.getD 1 0
  plus (plus (plus (recent.getD 15 0) (parity (turn w15 7) (turn w15 18) (Nat.shiftRight w15 3)))
    (recent.getD 6 0)) (parity (turn w2 17) (turn w2 19) (Nat.shiftRight w2 10))

/-- The sixty-four words that a block of sixteen is made into. -/
def schedule (block : List ℕ) : List ℕ :=
  ((List.range 48).foldl (fun ws _ => nextWord ws :: ws) block.reverse).reverse

/-- One of the rounds of a block, on numbers. -/
def round (s : Numbers) (k w : ℕ) : Numbers :=
  let t1 := plus (plus (plus (plus s.h (parity (turn s.e 6) (turn s.e 11) (turn s.e 25)))
    (choice s.e s.f s.g)) k) w
  let t2 := plus (parity (turn s.a 2) (turn s.a 13) (turn s.a 22)) (majority s.a s.b s.c)
  ⟨plus t1 t2, s.a, s.b, s.c, plus s.d t1, s.e, s.f, s.g⟩

/-- The constants of the rounds as numbers. -/
def roundConstants : List ℕ := Digest.roundConstants.map UInt32.toNat

/-- The state after a block, on numbers. -/
def compress (s : Numbers) (block : List ℕ) : Numbers :=
  s.add ((List.zip roundConstants (schedule block)).foldl (fun t kw => round t kw.1 kw.2) s)

/-- Bytes read as words of four. -/
def ofBytes : List UInt8 → List ℕ
  | a :: b :: c :: d :: r =>
    Nat.lor (Nat.lor (Nat.lor (Nat.shiftLeft a.toNat 24) (Nat.shiftLeft b.toNat 16))
      (Nat.shiftLeft c.toNat 8)) d.toNat :: ofBytes r
  | _ => []

/-- The blocks of sixteen words. -/
def blocks : ℕ → List ℕ → List (List ℕ)
  | 0, _ => []
  | n + 1, ws => ws.take 16 :: blocks n (ws.drop 16)

/-- The digest of a message, computed on numbers. -/
def sha256 (message : List UInt8) : List UInt8 :=
  let ws := ofBytes (pad message)
  ((blocks (ws.length / 16) ws).foldl compress State.initial.numbers).words.flatMap (Bytes.bigEndian 4)

end Numbers

/-- The sum of words is the sum of their numbers modulo 2 to the power of 32. -/
lemma toNat_add (x y : UInt32) : (x + y).toNat = plus x.toNat y.toNat := UInt32.toNat_add x y

/-- A rotated word has the number that is turned. -/
lemma toNat_rotate {x n : UInt32} (h : 0 < n.toNat) (h' : n.toNat < 32) :
    (rotate x n).toNat = turn x.toNat n.toNat := by
  have hshift : (32 - n).toNat = 32 - n.toNat :=
    UInt32.toNat_sub_of_le _ _ (UInt32.le_iff_toNat_le.2 h'.le)
  have hlt : 32 - n.toNat < 32 := by omega
  rw [rotate, UInt32.toNat_or, UInt32.toNat_shiftRight, UInt32.toNat_shiftLeft, hshift,
    Nat.mod_eq_of_lt h', Nat.mod_eq_of_lt hlt]
  rfl

/-- The bitwise sum of three words has the number of the sum. -/
lemma toNat_parity (x y z : UInt32) : (x ^^^ y ^^^ z).toNat = parity x.toNat y.toNat z.toNat := rfl

/-- The choice between words has the number of the choice. -/
lemma toNat_choice (x y z : UInt32) :
    (x &&& y ^^^ ~~~x &&& z).toNat = choice x.toNat y.toNat z.toNat := by
  rw [UInt32.toNat_xor, UInt32.toNat_and, UInt32.toNat_and, UInt32.toNat_not]
  rfl

/-- The next word of a schedule has the number of the next word. -/
lemma toNat_nextWord (recent : List UInt32) :
    (nextWord recent).toNat = Numbers.nextWord (recent.map UInt32.toNat) := by
  have hget : ∀ i, (recent.getD i 0).toNat = (recent.map UInt32.toNat).getD i 0 := fun i => by
    rw [List.getD_eq_getElem?_getD, List.getD_eq_getElem?_getD, List.getElem?_map]
    cases recent[i]? <;> rfl
  simp (disch := decide) only [nextWord, Numbers.nextWord, toNat_add, toNat_parity, toNat_rotate,
    UInt32.toNat_shiftRight, hget, UInt32.reduceToNat, Nat.reduceMod]
  rfl

/-- A round on words is a round on their numbers. -/
lemma numbers_round (s : State) (k w : UInt32) :
    (round s k w).numbers = s.numbers.round k.toNat w.toNat := by
  simp (disch := decide) only [round, State.numbers, Numbers.round, majority, toNat_add, toNat_parity,
    UInt32.toNat_and, toNat_choice, toNat_rotate, UInt32.reduceToNat]
  rfl

/-- The schedule of words has the numbers of the schedule. -/
lemma map_schedule (block : List UInt32) :
    (schedule block).map UInt32.toNat = Numbers.schedule (block.map UInt32.toNat) := by
  have hstep : ∀ (ws : List UInt32) (_ : ℕ),
      Numbers.nextWord (ws.map UInt32.toNat) :: ws.map UInt32.toNat = (nextWord ws :: ws).map UInt32.toNat :=
    fun ws _ => by rw [List.map_cons, toNat_nextWord]
  rw [schedule, Numbers.schedule, ← List.map_reverse, List.foldl_hom (List.map UInt32.toNat) hstep,
    List.map_reverse]

/-- A block on words is a block on their numbers. -/
lemma numbers_compress (s : State) (block : List UInt32) :
    (compress s block).numbers = s.numbers.compress (block.map UInt32.toNat) := by
  have hstep : ∀ (t : State) (kw : UInt32 × UInt32),
      t.numbers.round kw.1.toNat kw.2.toNat = (round t kw.1 kw.2).numbers :=
    fun t kw => (numbers_round t kw.1 kw.2).symm
  rw [compress, Numbers.compress, Numbers.roundConstants, ← map_schedule, List.zip_map, List.foldl_map]
  simp only [Prod.map_fst, Prod.map_snd]
  rw [List.foldl_hom State.numbers hstep]
  simp only [State.add, State.numbers, Numbers.add, toNat_add]

/-- A byte in its place within a word has the shifted number. -/
lemma toNat_shifted (b : UInt8) {n : UInt32} (h : n.toNat ≤ 24) :
    (b.toUInt32 <<< n).toNat = Nat.shiftLeft b.toNat n.toNat := by
  have hpow : 2 ^ n.toNat ≤ 2 ^ 24 := Nat.pow_le_pow_right (by decide) h
  have hb := b.toNat_lt
  have hlt : b.toNat <<< n.toNat < 2 ^ 32 := by
    rw [Nat.shiftLeft_eq]
    nlinarith
  have hmod : n.toNat % 32 = n.toNat := Nat.mod_eq_of_lt (by omega)
  rw [UInt32.toNat_shiftLeft, UInt8.toNat_toUInt32, hmod, Nat.mod_eq_of_lt hlt]
  rfl

/-- The words of bytes have the numbers of the bytes. -/
lemma map_toWords (bs : List UInt8) : (toWords bs).map UInt32.toNat = Numbers.ofBytes bs := by
  induction bs using toWords.induct with
  | case1 a b c d r ih =>
    rw [toWords, Numbers.ofBytes, List.map_cons, ih, UInt32.toNat_or, UInt32.toNat_or, UInt32.toNat_or,
      toNat_shifted a (by decide), toNat_shifted b (by decide), toNat_shifted c (by decide),
      UInt8.toNat_toUInt32]
    rfl
  | case2 bs h =>
    rw [toWords, Numbers.ofBytes]
    · rfl
    · exact h
    · exact h

/-- The blocks of words have the numbers of the blocks. -/
lemma map_blocks (n : ℕ) (ws : List UInt32) :
    (blocks n ws).map (List.map UInt32.toNat) = Numbers.blocks n (ws.map UInt32.toNat) := by
  induction n generalizing ws with
  | zero => rfl
  | succ n ih => rw [blocks, Numbers.blocks, List.map_cons, ih, List.map_take, List.map_drop]

/-- The digest of a message, with numbers for words. -/
theorem sha256_eq (message : List UInt8) : sha256 message = Numbers.sha256 message := by
  have hwords : ∀ s : State, s.words.map UInt32.toNat = s.numbers.words := fun s => rfl
  simp only [sha256, Numbers.sha256]
  rw [← map_toWords, List.length_map, ← map_blocks, List.foldl_map,
    List.foldl_hom State.numbers fun s block => (numbers_compress s block).symm, ← hwords, List.flatMap_map]

/-- The bytes of a text are those of its characters in a row. -/
lemma toList_data (s : String) : s.toByteArray.data.toList = s.toList.flatMap String.utf8EncodeChar := by
  rw [← utf8_eq, utf8, ByteArray.toList, loop_toList]
  rfl

end Digest

/-! ## Bytes of values -/

namespace Json

open String (utf8EncodeChar)

/-- Whether a byte stands for itself in a string literal. -/
def isPlain (b : UInt8) : Bool :=
  Nat.ble 32 b.toNat && !Nat.beq b.toNat 34 && !Nat.beq b.toNat 92

/-- A character whose bytes are plain is not escaped. -/
lemma escapeChar_of_isPlain {c : Char} (h : (utf8EncodeChar c).all isPlain = true) : escapeChar c = [c] := by
  have hne : ∀ d, (utf8EncodeChar d).all isPlain = false → c ≠ d := by
    rintro d hd rfl
    cases h.symm.trans hd
  have hcontrol : ¬c.toNat < 32 := by
    intro hc
    have hval : c.val.toNat ≤ 127 := by
      change c.toNat ≤ 127
      omega
    rw [utf8EncodeChar] at h
    simp only [hval, ↓reduceIte, List.all_cons, List.all_nil, Bool.and_true, isPlain, Bool.and_eq_true,
      Nat.ble_eq, UInt8.toNat_ofNat'] at h
    have hsmall : c.val.toNat % 2 ^ 8 < 32 := (Nat.mod_le _ _).trans_lt hc
    omega
  rw [escapeChar, if_neg (hne _ (by decide)), if_neg (hne _ (by decide)), if_neg (hne _ (by decide)),
    if_neg (hne _ (by decide)), if_neg (hne _ (by decide)), if_neg (hne _ (by decide)),
    if_neg (hne _ (by decide)), if_neg hcontrol]

/-- The bytes of a string literal. -/
def quoteBytes (s : String) : List UInt8 :=
  let bs := s.toByteArray.data.toList
  if bs.all isPlain then 34 :: (bs ++ [34]) else (quote s).flatMap utf8EncodeChar

/-- The bytes of a quoted text are those of its characters. -/
lemma quoteBytes_eq (s : String) : quoteBytes s = (quote s).flatMap utf8EncodeChar := by
  rw [quoteBytes, Digest.toList_data]
  split
  · rename_i h
    have hplain : s.toList.flatMap escapeChar = s.toList := by
      rw [List.all_flatMap, List.all_eq_true] at h
      conv_rhs => rw [← List.flatMap_singleton' s.toList]
      exact List.flatMap_congr fun c hc => escapeChar_of_isPlain (h c hc)
    rw [quote, hplain, List.flatMap_cons, List.flatMap_append]
    rfl
  · rfl

mutual

/-- The bytes of the compact text of a value. -/
def bytes : Json → List UInt8
  | null => [110, 117, 108, 108]
  | bool true => [116, 114, 117, 101]
  | bool false => [102, 97, 108, 115, 101]
  | num n => n.render.toByteArray.data.toList
  | str s => quoteBytes s
  | arr [] => [91, 93]
  | arr (v :: vs) => 91 :: (bytes v ++ bytesOfItems vs)
  | obj [] => [123, 125]
  | obj ((k, v) :: fs) => 123 :: (quoteBytes k ++ 58 :: (bytes v ++ bytesOfFields fs))

/-- The bytes of the rest of a list. -/
def bytesOfItems : List Json → List UInt8
  | [] => [93]
  | v :: vs => 44 :: (bytes v ++ bytesOfItems vs)

/-- The bytes of the rest of an object. -/
def bytesOfFields : List (String × Json) → List UInt8
  | [] => [125]
  | (k, v) :: fs => 44 :: (quoteBytes k ++ 58 :: (bytes v ++ bytesOfFields fs))

end

mutual

/-- The bytes of a document are those of its characters. -/
lemma bytes_eq : ∀ v : Json, v.bytes = v.chars.flatMap utf8EncodeChar
  | null => by simp only [bytes, chars]; rfl
  | bool true => by simp only [bytes, chars]; rfl
  | bool false => by simp only [bytes, chars]; rfl
  | num n => by rw [bytes, chars, Digest.toList_data]
  | str s => by rw [bytes, chars, quoteBytes_eq]
  | arr [] => by simp only [bytes, chars]; rfl
  | arr (v :: vs) => by
    rw [bytes, chars, List.flatMap_cons, List.flatMap_append, bytes_eq v, bytesOfItems_eq vs]
    rfl
  | obj [] => by simp only [bytes, chars]; rfl
  | obj ((k, v) :: fs) => by
    rw [bytes, chars, List.flatMap_cons, List.flatMap_append, List.flatMap_cons, List.flatMap_append,
      quoteBytes_eq, bytes_eq v, bytesOfFields_eq fs]
    rfl

/-- The bytes of the rest of a list are those of its characters. -/
lemma bytesOfItems_eq : ∀ vs : List Json, bytesOfItems vs = (charsOfItems vs).flatMap utf8EncodeChar
  | [] => by simp only [bytesOfItems, charsOfItems]; rfl
  | v :: vs => by
    rw [bytesOfItems, charsOfItems, List.flatMap_cons, List.flatMap_append, bytes_eq v, bytesOfItems_eq vs]
    rfl

/-- The bytes of the rest of an object are those of its characters. -/
lemma bytesOfFields_eq :
    ∀ fs : List (String × Json), bytesOfFields fs = (charsOfFields fs).flatMap utf8EncodeChar
  | [] => by simp only [bytesOfFields, charsOfFields]; rfl
  | (k, v) :: fs => by
    rw [bytesOfFields, charsOfFields, List.flatMap_cons, List.flatMap_append, List.flatMap_cons,
      List.flatMap_append, quoteBytes_eq, bytes_eq v, bytesOfFields_eq fs]
    rfl

end

end Json

/-- The address of a value, as it is evaluated. -/
theorem Address.ofJson_eq (v : Json) : ofJson v = ⟨Text.hex (Digest.Numbers.sha256 v.normalize.bytes)⟩ := by
  rw [ofJson, ofText, Digest.ofText, Json.canonical, Json.compact, Digest.utf8_ofList, Json.bytes_eq,
    Digest.sha256_eq]

end ProvenTables
