import ProvenTables.Database.Execute
import ProvenTables.Report.Grid
import ProvenTables.Text.LowerCase

/-!
# Reports

The reply to a statement as a text: a framed table, JSON, or values separated by tabs.
-/

open ProvenTables.Membership

namespace ProvenTables

/-- The formats of the output. -/
inductive Format where
  | table
  | json
  | raw
  deriving DecidableEq

namespace Format

/-- The name of a format. -/
def name : Format → String
  | table => "table"
  | json => "json"
  | raw => "raw"

/-- Every format. -/
def all : List Format := [table, json, raw]

/-- A name that no format has, in lower case. -/
structure Unknown where
  name : String
  deriving DecidableEq

/-- What a client reads about a name of no format. -/
def Unknown.message (e : Unknown) : String :=
  "Unknown format '" ++ e.name ++ "'. Available: " ++ ", ".intercalate (all.map Format.name)

/-- The format that a text names. -/
def ofName? (s : String) : Option Format := all.find? (·.name = s)

/-- The format of a name in any case. -/
def ofName (s : String) : Except Unknown Format :=
  let lower := String.ofList (Text.lower s.toList)
  match ofName? lower with
  | some f => .ok f
  | none => .error ⟨lower⟩

end Format

namespace Report

/-- The line that reports what has become of a proof. -/
def proofLine : ProofOutcome → String
  | .proven c p =>
    "proof: " ++ p.hex ++ " (" ++ toString c.bytes.length ++ " byte circuit)"
  | .failed e => "proof failed: " ++ e.message

/-- The line about the proof, if one was asked for. -/
def proofLines (r : Reply) : List String := (r.proof.map proofLine).toList

/-- The rows of a result, with the number of the group in front if there are groups. -/
def gridOf (a : Query.Answer) : Grid :=
  match a.result with
  | .rows rs => ⟨a.columns, rs.map (·.map Scalar.render)⟩
  | .groups gs =>
    ⟨"group" :: a.columns,
      gs.zipIdx.flatMap fun g => g.1.map fun r => toString (g.2 + 1) :: r.map Scalar.render⟩

/-- The number of rows or groups. -/
def countLine (r : Query.Result) : String :=
  let noun := match r with
    | .rows _ => "row"
    | .groups _ => "group"
  "(" ++ toString r.length ++ " " ++ noun ++ (if r.length = 1 then "" else "s") ++ ")"

/-- The lines of a table, or the address of a change, and the line about the proof. -/
def table (r : Reply) : List String :=
  (match r.commit with
    | some c => ["OK (sequence " ++ c.history.text ++ ")"]
    | none => [(gridOf r.answer).render, countLine r.answer.result]) ++ proofLines r

/-- The fields that report what has become of a proof. -/
def proofFields : Option ProofOutcome → List (String × Json)
  | some (.proven c p) => [("circuit", .str c.hex), ("proof", .str p.hex)]
  | some (.failed e) => [("proof_error", .str e.message)]
  | none => []

/-- The record of what a statement has returned. -/
def json (r : Reply) : Json :=
  .obj ([("columns", .strs r.answer.columns), ("result", r.answer.result.toJson)] ++
    (match r.commit with
      | some c => [("sequence_cid", .str c.history.text)]
      | none => []) ++ proofFields r.proof)

/-- The address of a change and the rows with their values set apart by tabs. -/
def raw (r : Reply) : List String :=
  (match r.commit with
    | some c => [c.history.text]
    | none => []) ++
    (r.answer.result.allRows.map fun row => "\t".intercalate (row.map Scalar.render)) ++
    proofLines r

/-- What a statement has returned, in a format. -/
def render (r : Reply) : Format → String
  | .table => "\n".intercalate (table r)
  | .json => (json r).normalize.pretty
  | .raw => "\n".intercalate (raw r)

/-- The record of an embedding. -/
def jsonOfEmbedding (v : List Binary64) : Json := .obj [("embedding", .arr (v.map Json.float))]

/-- An embedding in a format. -/
def renderEmbedding (v : List Binary64) : Format → String
  | .json => (jsonOfEmbedding v).compact
  | .table | .raw => renderFloats v

end Report

end ProvenTables
