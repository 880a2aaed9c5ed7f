import ProvenTables.Binary64.Arithmetic

/-!
# Cosine similarity
-/

namespace ProvenTables.Query

/-- The product of two vectors divided by the product of their lengths. It is undefined if the
vectors are empty or of different dimension, and where the quotient is not finite. -/
def cosine? (a b : List Binary64) : Option Binary64 :=
  if a.isEmpty ∨ a.length ≠ b.length then none
  else
    let c := (Binary64.dot a b).div ((Binary64.norm a).mul (Binary64.norm b))
    if c.isFinite then some c else none

/-- The higher score first, and undefined scores last. -/
def orderScores : Option Binary64 → Option Binary64 → Ordering
  | some x, some y => y.totalCompare x
  | some _, none => .lt
  | none, some _ => .gt
  | none, none => .eq

end ProvenTables.Query
