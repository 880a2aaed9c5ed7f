import ProvenTables.Binary64.Notation
import ProvenTables.ColumnType
import ProvenTables.ErrorCode

/-!
# Failures to prove membership
-/

namespace ProvenTables.Membership

/-- A time in nanoseconds as a text: the largest unit of which there is at least one, with a
fraction if it is not whole. -/
def renderDuration (nanos : Nat) : String :=
  let inUnit (unit width : Nat) (name : String) : String :=
    let part := (Text.paddedDigits width (nanos % unit)).reverse.dropWhile (· == '0')
    let fraction := if part.isEmpty then [] else '.' :: part.reverse
    toString (nanos / unit) ++ String.ofList fraction ++ name
  if 10 ^ 9 ≤ nanos then inUnit (10 ^ 9) 9 "s"
  else if 10 ^ 6 ≤ nanos then inUnit (10 ^ 6) 6 "ms"
  else if 10 ^ 3 ≤ nanos then inUnit (10 ^ 3) 3 "µs"
  else toString nanos ++ "ns"

/-- Why membership is not proved. -/
inductive MembershipError where
  | noColumns
  | typeMismatch (expected got : ColumnType)
  | notFinite (x : Binary64)
  /-- The challenge is a root of the polynomial of the records. -/
  | challengeIsRoot
  | unknownColumn (name : String)
  | unsatisfied (value : Int)
  /-- The compiler or the prover refuses for a reason of its own. -/
  | notCompiled (reason : String)
  | rejected (reason : String)
  | timeout (nanos : Nat)
  | busy (inFlight : Nat)
  /-- There is no thread for the work. -/
  | notStarted (reason : String)
  | noResult
  deriving DecidableEq

namespace MembershipError

/-- The code that an error is reported with. -/
def code : MembershipError → ErrorCode
  | timeout _ => .timeout
  | notStarted _ | noResult => .internal
  | _ => .proofFailure

/-- What a client reads about an error. -/
def message : MembershipError → String
  | noColumns => "cannot prove membership in a table without columns"
  | typeMismatch expected got =>
    "encoding failed: expected " ++ expected.name ++ " value, got " ++ got.name
  | notFinite x => "encoding failed: non-finite float " ++ x.render .full
  | challengeIsRoot => "encoding failed: challenge coincides with a record root"
  | unknownColumn name => "unknown column '" ++ name ++ "'"
  | unsatisfied value =>
    "prover rejected circuit: witness evaluates to " ++ toString value ++ ", expected 0"
  | notCompiled reason => "encoding failed: " ++ reason
  | rejected reason => "prover rejected circuit: " ++ reason
  | timeout nanos => "proof generation timed out after " ++ renderDuration nanos
  | busy inFlight => "prover busy: " ++ toString inFlight ++ " proofs already in flight"
  | notStarted reason => "proof worker failed: " ++ reason
  | noResult => "proof worker failed: prover thread exited without a result"

end MembershipError

end ProvenTables.Membership
