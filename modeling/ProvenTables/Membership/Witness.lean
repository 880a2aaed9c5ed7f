import ProvenTables.Membership.Encoding

/-!
# Witnesses

If the records are among the cells of the table, the polynomial of the records divides that of the
table, and so do their values at a challenge. The witness holds both sides of that divisibility.
-/

namespace ProvenTables.Membership

/-- How the point at which the polynomials are evaluated is chosen. -/
inductive Challenge where
  | chosen (point : Nat)
  /-- The digest of both lists of roots. -/
  | transcript
  deriving DecidableEq

/-- The number of roots and the roots, each with its length in bytes, after a label. -/
def rootBytes (label : String) (roots : List Nat) : List UInt8 :=
  Digest.utf8 label ++ Bytes.bigEndian 8 roots.length ++ roots.flatMap fun e =>
    let bytes := Bytes.ofNat e
    Bytes.bigEndian 4 bytes.length ++ bytes

/-- The bytes from which a challenge is derived. -/
def transcriptBytes (table records : List Nat) : List UInt8 :=
  rootBytes "table" table ++ rootBytes "record" records

/-- The point at which the polynomials are compared. The order is positive here: without one there is no
residue, and `Claim.witness` says what becomes of such a claim. -/
def Challenge.point (params : Params) (table records : List Nat) : Challenge → Nat
  | chosen point => point % params.order
  | transcript => digestNat (transcriptBytes table records) % params.order

/-- The value at a point of the polynomial with the given roots. -/
def evaluate (roots : List Nat) (point : Nat) : Int :=
  roots.foldl (fun acc (e : Nat) => acc * ((point : Int) - e)) 1

/-! ## Rounded division -/

/-- The quotient rounded down, from the one that is rounded towards zero. -/
def floorDiv (a b : Int) : Int :=
  let quotient := a.tdiv b
  let remainder := a - quotient * b
  if remainder ≠ 0 ∧ decide (remainder < 0) ≠ decide (b < 0) then quotient - 1 else quotient

/-- The residue that is not negative, from the one that has the sign of the dividend. -/
def modFloor (a m : Int) : Int :=
  let residue := a.tmod m
  if residue < 0 then residue + m else residue

/-- The corrected quotient is the one that is rounded down. -/
theorem floorDiv_eq_fdiv {a b : Int} (hb : b ≠ 0) : floorDiv a b = a.fdiv b := by
  have hremainder : a - a.tdiv b * b = a.tmod b := by
    have h := Int.mul_tdiv_add_tmod a b
    rw [Int.mul_comm] at h
    omega
  have hzero : b ∣ a ↔ a.tmod b = 0 := Int.dvd_iff_tmod_eq_zero
  -- the remainder has the sign of the dividend
  have hnonneg : 0 ≤ a → 0 ≤ a.tmod b := Int.tmod_nonneg b
  have hnonpos : a < 0 → a.tmod b ≤ 0 := fun h => by
    have h := Int.tmod_nonneg (a := -a) b (by omega)
    rw [Int.neg_tmod] at h
    omega
  simp only [floorDiv, hremainder, Int.fdiv_eq_tdiv, hzero]
  generalize a.tmod b = r at *
  by_cases hr : r = 0
  · simp [hr]
  rcases Int.lt_or_gt_of_ne hb with hb | hb
  · have hsign : b.sign = -1 := Int.sign_eq_neg_one_iff_neg.2 hb
    by_cases ha : 0 ≤ a <;> simp [hr, hb, hsign, ha] <;> omega
  · have hsign : b.sign = 1 := Int.sign_eq_one_iff_pos.2 hb
    by_cases ha : 0 ≤ a <;> simp [hr, hsign, ha] <;> omega

/-- The corrected residue is the one that is not negative. -/
theorem modFloor_eq_emod {a m : Int} (hm : 0 < m) : modFloor a m = a % m := by
  have hnonneg : 0 ≤ a % m := Int.emod_nonneg a (by omega)
  have hlt : a % m < m := Int.emod_lt_of_pos a hm
  have hresidue : a.tmod m = a % m ∨ a.tmod m = a % m - m := by
    rw [Int.tmod_eq_emod]
    split <;> omega
  obtain h | h := hresidue
  · simp only [modFloor, h, if_neg (Int.not_lt.2 hnonneg)]
  · have hneg : a % m - m < 0 := by omega
    simp only [modFloor, h, if_pos hneg, Int.sub_add_cancel]

/-! ## Operands -/

/-- The operands of a circuit: equal if the value of the records divides that of the table. -/
structure Witness where
  challenge : Nat
  lhs : Int
  rhs : Int
  deriving DecidableEq

namespace Witness

/-- The difference of the two sides, which is zero for records that belong to the table. -/
def value (w : Witness) : Int := w.lhs - w.rhs

/-- Whether the two sides agree. -/
def isZero (w : Witness) : Bool := w.lhs == w.rhs

/-- The witness of two lists of roots at a point: with `p` and `q` the values of the polynomials
there, `p` and `q * ⌊p / q⌋` modulo the scale, which is positive here. -/
def ofRoots (params : Params) (table records : List Nat) (point : Nat) :
    Except MembershipError Witness :=
  let p := evaluate table point
  let q := evaluate records point
  if q = 0 then .error .challengeIsRoot
  else .ok ⟨point, modFloor p params.scale, modFloor (q * floorDiv p q) params.scale⟩

/-- The witness of records of a table, or why they have none. The order and the scale are positive here,
as in `Challenge.point`. -/
def build (params : Params) (challenge : Challenge) (t : Table) (names : List String)
    (records : List Row) : Except MembershipError Witness := do
  let tr ← tableRoots params t
  let rr ← recordRoots params t names records
  ofRoots params tr rr (challenge.point params tr rr)

end Witness

end ProvenTables.Membership
