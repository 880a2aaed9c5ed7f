import ProvenTables.Binary64.Arithmetic
import ProvenTables.Binary64.Decimal
import ProvenTables.Digest
import ProvenTables.Text.LowerCase

/-!
# Embeddings

A text as a vector of a given dimension: every word adds one to a component or takes one from it, as
the digest of the word says, and the sum is brought to length one.
-/

namespace ProvenTables.Embedding

/-- The digests of the words of a text in lower case, in order. -/
def wordDigests (text : String) : List (List UInt8) :=
  (Text.words text.toList).map fun w =>
    Digest.sha256 (Digest.utf8 (String.ofList (Text.lower w)))

/-- The component that a digest belongs to. -/
def component (dimension : Nat) (digest : List UInt8) : Nat :=
  Bytes.toNat (digest.take 8) % dimension

/-- What a digest adds to its component. -/
def weight (digest : List UInt8) : Int :=
  if (digest.getD 8 0).toNat % 2 = 0 then 1 else -1

/-- The sum of the weights of digests, component by component. -/
def weights (dimension : Nat) (digests : List (List UInt8)) : List Int :=
  digests.foldl (fun v d => v.modify (component dimension d) (· + weight d))
    (List.replicate dimension 0)

/-- A vector brought to length one; the zero vector stays as it is. -/
def normalize (v : List Binary64) : List Binary64 :=
  let n := Binary64.norm v
  if n.isZero then v else v.map (·.div n)

/-- The normalised sum of the weights that the words of a text give to each dimension. -/
def ofText (dimension : Nat) (text : String) : List Binary64 :=
  normalize ((weights dimension (wordDigests text)).map Binary64.ofInt)

/-- The weights are as many as the dimensions. -/
theorem length_weights (dimension : Nat) (digests : List (List UInt8)) :
    (weights dimension digests).length = dimension := by
  have step : ∀ (ds : List (List UInt8)) (v : List Int),
      (ds.foldl (fun v d => v.modify (component dimension d) (· + weight d)) v).length =
        v.length := by
    intro ds
    induction ds with
    | nil => exact fun _ => rfl
    | cons d ds ih => exact fun v => by rw [List.foldl_cons, ih, List.length_modify]
  rw [weights, step, List.length_replicate]

/-- The embedding of a text has one entry for each dimension. -/
theorem length_ofText (dimension : Nat) (text : String) :
    (ofText dimension text).length = dimension := by
  simp only [ofText, normalize]
  split <;> simp [length_weights]

end ProvenTables.Embedding
