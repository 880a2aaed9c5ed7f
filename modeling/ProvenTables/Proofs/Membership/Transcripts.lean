import ProvenTables.Membership.Circuit
import ProvenTables.Proofs.Bytes
import ProvenTables.Proofs.Digest

/-!
# What transcripts determine

Operands and roots are written behind their lengths, so that the bytes of circuits determine them and the
bytes from which a challenge is derived determine both lists of roots. A proof, which is a digest of such
bytes, is bound to its circuit (`verify_exact`), and a challenge to what is proved at it
(`transcriptBytes_exact`), as long as digests do not collide.
-/

namespace ProvenTables.Membership

/-! ## Circuits -/

namespace Circuit

/-- The two's complement of every operand is short enough for its length to be written whole. -/
structure IsCompact (c : Circuit) : Prop where
  lhs : (Bytes.ofInt c.lhs).length < 2 ^ 32
  rhs : (Bytes.ofInt c.rhs).length < 2 ^ 32
  output : (Bytes.ofInt c.output).length < 2 ^ 32

variable {c c' : Circuit} {p : Proof} {x y : ℤ} {xs ys : List UInt8}

/-- An operand is found again in front of what follows it. -/
lemma operandBytes_append_inj (hx : (Bytes.ofInt x).length < 2 ^ 32) (hy : (Bytes.ofInt y).length < 2 ^ 32)
    (h : operandBytes x ++ xs = operandBytes y ++ ys) : x = y ∧ xs = ys := by
  obtain ⟨hbytes, hrest⟩ := Bytes.counted_append_inj hx hy h
  exact ⟨Bytes.ofInt_inj.1 hbytes, hrest⟩

/-- The bytes of a circuit are a label, a version and its three operands. -/
lemma bytes_eq (c : Circuit) : c.bytes = (Digest.utf8 "ZKC1" ++ [1]) ++
    (operandBytes c.lhs ++ (operandBytes c.rhs ++ operandBytes c.output)) := by
  simp only [bytes, List.append_assoc]

/-- Circuits with the same fields are the same. -/
lemma eq_of_fields (hlhs : c.lhs = c'.lhs) (hrhs : c.rhs = c'.rhs) (houtput : c.output = c'.output) :
    c = c' := by
  cases c
  cases c'
  simp only at hlhs hrhs houtput
  rw [hlhs, hrhs, houtput]

/-- The bytes of compact circuits determine them. -/
theorem eq_of_bytes (h : c.IsCompact) (h' : c'.IsCompact) (hbytes : c.bytes = c'.bytes) : c = c' := by
  rw [bytes_eq, bytes_eq] at hbytes
  obtain ⟨hlhs, hbytes⟩ := operandBytes_append_inj h.lhs h'.lhs (List.append_cancel_left hbytes)
  obtain ⟨hrhs, hbytes⟩ := operandBytes_append_inj h.rhs h'.rhs hbytes
  have hbytes : operandBytes c.output ++ [] = operandBytes c'.output ++ [] := by
    rw [List.append_nil, List.append_nil, hbytes]
  obtain ⟨houtput, -⟩ := operandBytes_append_inj h.output h'.output hbytes
  exact eq_of_fields hlhs hrhs houtput

/-- A circuit is satisfied if its sides agree and its output is zero. -/
lemma isSatisfied_iff : c.isSatisfied = true ↔ c.lhs = c.rhs ∧ c.output = 0 := by
  simp only [isSatisfied, value, Bool.and_eq_true, beq_iff_eq]
  omega

/-- A circuit is proved by its digest if and only if it is satisfied. -/
lemma prove_eq_ok_iff :
    c.prove = .ok p ↔ c.isSatisfied = true ∧ p = ⟨Digest.sha256 c.transcript⟩ := by
  rw [prove]
  split
  · rename_i hsatisfied
    simp [hsatisfied, eq_comm]
  · rename_i hsatisfied
    simp [hsatisfied]

/-- The accepted proof of a circuit is the one that proving gives. -/
lemma verify_iff : c.verify p = true ↔ c.prove = .ok p := by
  rw [prove_eq_ok_iff, verify, Bool.and_eq_true, beq_iff_eq]
  refine and_congr_right fun _ => ⟨fun h => ?_, fun h => ?_⟩
  · rw [h]
  · rw [h]

/-- A satisfied circuit has one operand twice, so that the length of its bytes says how long the operand
is, even if that is too long for the length to be written whole. -/
lemma eq_of_transcript (h : c.isSatisfied = true) (h' : c'.isSatisfied = true)
    (htranscript : c.transcript = c'.transcript) : c = c' := by
  obtain ⟨hrhs, houtput⟩ := isSatisfied_iff.1 h
  obtain ⟨hrhs', houtput'⟩ := isSatisfied_iff.1 h'
  have hoperands : operandBytes c.lhs ++ operandBytes c.lhs = operandBytes c'.lhs ++ operandBytes c'.lhs := by
    have hbytes := List.append_cancel_left htranscript
    rw [bytes_eq, bytes_eq, ← hrhs, ← hrhs', houtput, houtput', ← List.append_assoc (operandBytes _),
      ← List.append_assoc (operandBytes _)] at hbytes
    exact List.append_cancel_right (List.append_cancel_left hbytes)
  have hlength := congrArg List.length hoperands
  simp only [List.length_append] at hlength
  obtain ⟨hoperand, -⟩ := List.append_inj hoperands (by omega)
  have hbytes : Bytes.ofInt c.lhs = Bytes.ofInt c'.lhs :=
    (List.append_inj hoperand (by rw [Bytes.length_bigEndian, Bytes.length_bigEndian])).2
  exact eq_of_fields (Bytes.ofInt_inj.1 hbytes) (by rw [← hrhs, ← hrhs', Bytes.ofInt_inj.1 hbytes])
    (houtput.trans houtput'.symm)

/-- The bytes of circuits with operands of fewer than 2^32 bytes determine them. A proof is verified for a
circuit exactly if it is the one that proving the circuit gives, which needs equal operands and the output
zero; it is then verified for no other circuit, unless the digests of two transcripts collide. -/
theorem verify_exact :
    (∀ c c' : Circuit, c.IsCompact → c'.IsCompact → c.bytes = c'.bytes →
      c.lhs = c'.lhs ∧ c.rhs = c'.rhs ∧ c.output = c'.output) ∧
    ∀ (c : Circuit) (p : Proof),
      (c.verify p = true → c.lhs = c.rhs ∧ c.output = 0 ∧ c.prove = .ok p) ∧
      (c.prove = .ok p → c.verify p = true ∧ ∀ c' : Circuit, c' ≠ c →
        (Digest.sha256 c'.transcript = Digest.sha256 c.transcript → c'.transcript = c.transcript) →
        c'.verify p = false) := by
  refine ⟨fun c c' h h' hbytes => ?_,
    fun c p => ⟨fun hverify => ?_, fun hprove => ⟨?_, fun c' hne hno => ?_⟩⟩⟩
  · obtain rfl := eq_of_bytes h h' hbytes
    exact ⟨rfl, rfl, rfl⟩
  · have hprove := verify_iff.1 hverify
    obtain ⟨hoperands, houtput⟩ := isSatisfied_iff.1 (prove_eq_ok_iff.1 hprove).1
    exact ⟨hoperands, houtput, hprove⟩
  · exact verify_iff.2 hprove
  · rw [Bool.eq_false_iff]
    intro hverify
    -- both circuits are proved by the digest of their transcript
    obtain ⟨hsatisfied, rfl⟩ := prove_eq_ok_iff.1 hprove
    obtain ⟨hsatisfied', hproof⟩ := prove_eq_ok_iff.1 (verify_iff.1 hverify)
    have hdigest := Proof.mk.inj hproof
    exact hne (eq_of_transcript hsatisfied' hsatisfied (hno hdigest.symm))

/-- The subtraction of a number from itself. -/
def ofEqual (x : ℤ) : Circuit := ⟨x, x, 0⟩

/-- The proof for `-128`, whose two's complement is the last byte of that of `128`, does not prove the circuit
for `128`. -/
theorem verify_exact_negated :
    (ofEqual (-128)).IsCompact ∧ (ofEqual 128).IsCompact ∧ (ofEqual (-128)).bytes ≠ (ofEqual 128).bytes ∧
    ∃ p, (ofEqual (-128)).prove = .ok p ∧ (ofEqual (-128)).verify p = true ∧
      (ofEqual 128).verify p = false := by
  have hzero : Bytes.ofInt 0 = [0] := by rw [Bytes.ofInt]; rfl
  have hneg : Bytes.ofInt (-128) = [0x80] := by rw [Bytes.ofInt]; rfl
  have hpos : Bytes.ofInt 128 = [0, 0x80] := by
    rw [Bytes.ofInt, if_neg (by decide), show (128 : ℤ) / 256 = 0 from rfl, hzero]
    rfl
  have h : (ofEqual (-128)).IsCompact := by
    constructor <;> simp [ofEqual, hzero, hneg]
  have h' : (ofEqual 128).IsCompact := by
    constructor <;> simp [ofEqual, hzero, hpos]
  obtain ⟨hinjective, hbound⟩ := verify_exact
  have hprove : (ofEqual (-128)).prove = .ok ⟨Digest.sha256 (ofEqual (-128)).transcript⟩ := rfl
  have hno : Digest.sha256 (ofEqual 128).transcript ≠ Digest.sha256 (ofEqual (-128)).transcript := by
    simp only [transcript, bytes, operandBytes, ofEqual, hzero, hneg, hpos, Digest.utf8_eq]
    decide +kernel
  obtain ⟨hverify, hother⟩ := (hbound _ _).2 hprove
  refine ⟨h, h', fun hbytes => ?_, _, hprove, hverify, hother (ofEqual 128) (by decide) fun hdigest => ?_⟩
  · exact absurd (hinjective _ _ h h' hbytes).1 (by decide)
  · exact absurd hdigest hno

end Circuit

/-! ## Challenges -/

/-- So few roots, and each of them so short, that their numbers are written whole. -/
structure AreCompact (roots : List ℕ) : Prop where
  length : roots.length < 2 ^ 64
  root : ∀ e ∈ roots, (Bytes.ofNat e).length < 2 ^ 32

variable {table records table' records' : List ℕ}

/-- The bytes of roots one after the other, with their lengths, determine as many roots. -/
lemma counted_roots_inj {as bs : List ℕ} {xs ys : List UInt8} (hlength : as.length = bs.length)
    (ha : ∀ e ∈ as, (Bytes.ofNat e).length < 2 ^ 32) (hb : ∀ e ∈ bs, (Bytes.ofNat e).length < 2 ^ 32)
    (h : (as.flatMap fun e => Bytes.bigEndian 4 (Bytes.ofNat e).length ++ Bytes.ofNat e) ++ xs =
      (bs.flatMap fun e => Bytes.bigEndian 4 (Bytes.ofNat e).length ++ Bytes.ofNat e) ++ ys) :
    as = bs ∧ xs = ys := by
  induction as generalizing bs with
  | nil =>
    obtain rfl := List.length_eq_zero_iff.1 hlength.symm
    exact ⟨rfl, h⟩
  | cons a as ih =>
    cases bs with
    | nil => cases hlength
    | cons b bs =>
      obtain ⟨haa, ha⟩ := List.forall_mem_cons.1 ha
      obtain ⟨hbb, hb⟩ := List.forall_mem_cons.1 hb
      simp only [List.flatMap_cons, List.append_assoc (_ ++ _)] at h
      obtain ⟨hbytes, h⟩ := Bytes.counted_append_inj haa hbb h
      obtain ⟨rfl, hrest⟩ := ih (Nat.succ.inj hlength) ha hb h
      exact ⟨by rw [Bytes.ofNat_inj.1 hbytes], hrest⟩

/-- The bytes of a list of roots, and what follows them, are determined by the whole. -/
lemma rootBytes_append_inj {label : String} {xs ys : List UInt8} (h : AreCompact table)
    (h' : AreCompact table') (hbytes : rootBytes label table ++ xs = rootBytes label table' ++ ys) :
    table = table' ∧ xs = ys := by
  simp only [rootBytes, List.append_assoc] at hbytes
  obtain ⟨hlength, hbytes⟩ := Bytes.bigEndian_append_inj h.length h'.length (List.append_cancel_left hbytes)
  exact counted_roots_inj hlength h.root h'.root hbytes

/-- The bytes from which a challenge is derived determine both lists of roots. -/
theorem transcriptBytes_eq_iff (ht : AreCompact table) (hr : AreCompact records) (ht' : AreCompact table')
    (hr' : AreCompact records') :
    transcriptBytes table records = transcriptBytes table' records' ↔
      table = table' ∧ records = records' := by
  constructor
  · intro h
    obtain ⟨htable, hrecords⟩ := rootBytes_append_inj ht ht' h
    have hrecords : rootBytes "record" records ++ [] = rootBytes "record" records' ++ [] := by
      rw [List.append_nil, List.append_nil, hrecords]
    exact ⟨htable, (rootBytes_append_inj hr hr' hrecords).1⟩
  · rintro ⟨rfl, rfl⟩
    rfl

/-- A challenge that is derived is the digest of the bytes, as a number, modulo the order. -/
theorem point_transcript (params : Params) (table records : List ℕ) :
    Challenge.transcript.point params table records =
      Bytes.toNat (Digest.sha256 (transcriptBytes table records)) % params.order := rfl

/-- Challenges are below the order of the field. -/
theorem point_lt (c : Challenge) {params : Params} (horder : 1 ≤ params.order) (table records : List ℕ) :
    c.point params table records < params.order := by
  cases c with
  | chosen point => exact Nat.mod_lt _ horder
  | transcript => exact Nat.mod_lt _ horder

/-- The bytes from which a challenge is derived determine both lists of roots, and so does their digest if no
other bytes have it. The challenges of two pairs of lists agree only if the pairs do, or if different bytes
have digests that are congruent modulo the order: a challenge is the digest of its bytes, reduced by the
order, and below it like every challenge. -/
theorem transcriptBytes_exact :
    (∀ table records table' records' : List ℕ, AreCompact table → AreCompact records → AreCompact table' →
      AreCompact records' →
      (transcriptBytes table records = transcriptBytes table' records' ↔
        table = table' ∧ records = records') ∧
      ((Digest.sha256 (transcriptBytes table records) = Digest.sha256 (transcriptBytes table' records') →
          transcriptBytes table records = transcriptBytes table' records') →
        Digest.sha256 (transcriptBytes table records) = Digest.sha256 (transcriptBytes table' records') →
          table = table' ∧ records = records') ∧
      ∀ params : Params, 1 ≤ params.order →
        (Challenge.transcript.point params table records =
            Challenge.transcript.point params table' records' ↔
          (table = table' ∧ records = records') ∨
            transcriptBytes table records ≠ transcriptBytes table' records' ∧
            Bytes.toNat (Digest.sha256 (transcriptBytes table records)) % params.order =
              Bytes.toNat (Digest.sha256 (transcriptBytes table' records')) % params.order)) ∧
    ∀ (params : Params) (table records : List ℕ), 1 ≤ params.order →
      Challenge.transcript.point params table records =
        Bytes.toNat (Digest.sha256 (transcriptBytes table records)) % params.order ∧
      ∀ c : Challenge, c.point params table records < params.order := by
  refine ⟨fun table records table' records' ht hr ht' hr' => ?_, fun params table records h =>
    ⟨point_transcript params table records, fun c => point_lt c h table records⟩⟩
  have hinjective := transcriptBytes_eq_iff ht hr ht' hr'
  refine ⟨hinjective, fun hno hdigest => hinjective.1 (hno hdigest), fun params _ => ?_⟩
  rw [point_transcript, point_transcript, ← hinjective]
  constructor
  · intro hpoint
    by_cases hbytes : transcriptBytes table records = transcriptBytes table' records'
    · exact .inl hbytes
    · exact .inr ⟨hbytes, hpoint⟩
  · rintro (hbytes | ⟨-, hpoint⟩)
    · rw [hbytes]
    · exact hpoint

/-- A root that is moved from the records to the table changes the bytes, and the challenge with them. -/
theorem transcriptBytes_exact_moved :
    AreCompact [0, 256] ∧ AreCompact [0] ∧ AreCompact [256] ∧ AreCompact [] ∧
      transcriptBytes [0, 256] [] ≠ transcriptBytes [0] [256] ∧
      Challenge.transcript.point .bn254 [0, 256] [] =
        1645052874371177268588945682381142594478401970881937429590952797227516594158 ∧
      Challenge.transcript.point .bn254 [0] [256] =
        19551541234285830255318326081107113758653262998924809243515077637636280670441 ∧
      Challenge.transcript.point .bn254 [0, 256] [] ≠ Challenge.transcript.point .bn254 [0] [256] ∧
      Challenge.transcript.point .bn254 [0, 256] [] < Params.bn254.order := by
  have hzero : Bytes.ofNat 0 = [0] := by rw [Bytes.ofNat]; rfl
  have hbig : Bytes.ofNat 256 = [1, 0] := by
    rw [Bytes.ofNat, if_neg (by decide), Bytes.ofNat]
    rfl
  have hboth : AreCompact [0, 256] := ⟨by decide, by simp [hzero, hbig]⟩
  have hone : AreCompact [0] := ⟨by decide, by simp [hzero]⟩
  have hother : AreCompact [256] := ⟨by decide, by simp [hbig]⟩
  have hnone : AreCompact [] := ⟨by decide, by simp⟩
  have hdigests : Bytes.toNat (Digest.sha256 (transcriptBytes [0, 256] [])) % Params.bn254.order =
        1645052874371177268588945682381142594478401970881937429590952797227516594158 ∧
      Bytes.toNat (Digest.sha256 (transcriptBytes [0] [256])) % Params.bn254.order =
        19551541234285830255318326081107113758653262998924809243515077637636280670441 := by
    simp only [transcriptBytes, rootBytes, List.flatMap_cons, List.flatMap_nil, hzero, hbig, Digest.utf8_eq]
    decide +kernel
  obtain ⟨hexact, hpoint⟩ := transcriptBytes_exact
  obtain ⟨hinjective, -, hchallenge⟩ := hexact _ _ _ _ hboth hnone hone hother
  have horder : 1 ≤ Params.bn254.order := by decide
  have hmoved : ¬([0, 256] = [0] ∧ [] = [256]) := by decide
  refine ⟨hboth, hone, hother, hnone, fun h => hmoved (hinjective.1 h),
    (hpoint _ _ _ horder).1.trans hdigests.1, (hpoint _ _ _ horder).1.trans hdigests.2, fun h => ?_,
    (hpoint _ _ _ horder).2 .transcript⟩
  rcases (hchallenge .bn254 horder).1 h with hsame | ⟨-, hcongruent⟩
  · exact hmoved hsame
  · rw [hdigests.1, hdigests.2] at hcongruent
    exact absurd hcongruent (by decide)

end ProvenTables.Membership
