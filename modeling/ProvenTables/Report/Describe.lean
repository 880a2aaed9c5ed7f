import ProvenTables.ErrorCode
import ProvenTables.Membership.Circuit
import ProvenTables.Query.Plan
import ProvenTables.Storage.Directory

/-!
# Descriptions

Values, tables, statements and answers as JSON, for those who want to look into them.
-/

namespace ProvenTables

/-- The name, the number and the category of an error code, and whether to try again. -/
def ErrorCode.describe (c : ErrorCode) : Json :=
  .arr [.str c.name, .nat c.number, .str c.category, .bool c.isRetryable]

/-- A value with its type, its document and its text. -/
def Scalar.describe (v : Scalar) : Json :=
  .obj [("type", .str v.type.name), ("json", v.toJson), ("text", .str v.render)]

/-- Every column as its name and the name of its type. -/
def describeColumns (columns : List Column) : Json :=
  .arr (columns.map fun c => .strs [c.name, c.type.name])

/-- The rows as a list of lists of values. -/
def Row.listJson (rows : List Row) : Json := .arr (rows.map Row.toJson)

/-- The buckets of an index by their keys. -/
def Index.toJson (ix : Index) : Json := Json.ofMap Row.listJson ix.buckets

/-- A table with all that it has. -/
def Table.toJson (t : Table) : Json :=
  .obj [("name", .str t.name), ("columns", describeColumns t.columns),
    ("rows", Row.listJson t.rows), ("indexes", Json.ofMap Index.toJson t.indexes)]

namespace Sql

/-- What follows a keyword that may be missing. -/
def describeClause {α : Type} (describe : α → Json) (clause : Option α) : Json :=
  (clause.map describe).getD .null

/-- The parts of a statement besides its kind and its table. -/
def Statement.parts : Statement → List (String × Json)
  | .createTable s => [("columns", describeColumns s.columns)]
  | .createIndex s => [("index", .str s.index), ("column", .str s.column)]
  | .insert s => [("columns", .strs s.columns), ("rows", .arr (s.rows.map Json.strs))]
  | .select s =>
    [("projection", match s.projection with
        | .all => .str "*"
        | .columns names => .strs names),
      ("where", describeClause (fun f => .strs [f.column, f.literal]) s.filter),
      ("group_by", describeClause .str s.groupBy),
      ("order_by", describeClause .str s.orderBy),
      ("limit", describeClause .nat s.limit),
      ("similarity",
        describeClause (fun r => .strs [r.column, renderFloats r.vector]) s.ranking)]

/-- The kind of a statement, its table and its parts. -/
def Statement.toJson (s : Statement) : Json :=
  .obj (("kind", .str s.kind) :: ("table", .str s.table) :: s.parts)

end Sql

/-- The columns of an answer, whether it has rows or groups, how many, and which. -/
def Query.Answer.describe (a : Query.Answer) : List (String × Json) :=
  let shape := match a.result with
    | .rows _ => "rows"
    | .groups _ => "groups"
  [("columns", .strs a.columns), ("shape", .str shape), ("len", .nat a.result.length),
    ("result", a.result.toJson)]

/-- The names of the files of a data directory, and the text of the registry. -/
def Disk.describe (d : Disk) : Json :=
  let registry := (d.registry.map fun _ => Disk.registryName).toList
  .obj [("root", .strs (Disk.objectsName :: registry)), ("objects", .strs d.objects.keys),
    ("registry", (d.registry.map Json.str).getD .null)]

namespace Membership

/-- A witness with its numbers in decimal digits. -/
def Witness.describe (w : Witness) : Json :=
  .obj [("challenge", .str (toString w.challenge)), ("lhs", .str (toString w.lhs)),
    ("rhs", .str (toString w.rhs)), ("value", .str (toString w.value)),
    ("is_zero", .bool w.isZero)]

/-- A proof with its digits and its length. -/
def Proof.describe (p : Proof) : Json :=
  .obj [("hex", .str p.hex), ("len", .nat p.bytes.length), ("empty", .bool p.bytes.isEmpty),
    ("debug", .str p.render)]

end Membership

end ProvenTables
