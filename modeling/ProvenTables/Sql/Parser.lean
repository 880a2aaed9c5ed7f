import ProvenTables.Sql.Nesting

/-!
# Parsing

A statement's text is first brought to single blanks outside quotes and then cut at keywords,
brackets and separators of the top level.
-/

namespace ProvenTables.Sql

open Text

/-- Writes every run of blanks outside quotes as one space; `pending` says whether a run has just
been passed. -/
def collapse : (quoted pending : Bool) → List Char → List Char
  | _, _, [] => []
  | quoted, pending, c :: cs =>
    if !quoted && isBlank c then collapse quoted true cs
    else
      let rest := c :: collapse (quoted != (c == quoteMark)) false cs
      if pending then ' ' :: rest else rest

/-- The text with single spaces outside quotes, without blanks at the ends and semicolons at the
end. -/
def squeeze (cs : List Char) : List Char :=
  trimRight (dropEndWhile (· == ';') (collapse false false (trim cs)))

/-- The characters that an identifier can start with. -/
def isIdentifierStart (c : Char) : Bool := c.isAlpha || c == '_'

/-- The characters that an identifier can go on with. -/
def isIdentifierRest (c : Char) : Bool := c.isAlphanum || c == '_'

/-- Whether a text is an ASCII letter or underscore followed by such and digits. -/
def isIdentifier : List Char → Bool
  | [] => false
  | c :: cs => isIdentifierStart c && cs.all isIdentifierRest

/-- An identifier, blanks at the ends apart. -/
def identifier (cs : List Char) : Except ParseError String :=
  let name := String.ofList (trim cs)
  if isIdentifier name.toList then .ok name else .error (.badIdentifier name)

/-- A name and the content of the parentheses after it. -/
def nameAndList (cs : List Char) : Except ParseError (String × List Char) := do
  let name := cs.takeWhile (· != '(')
  let list := cs.dropWhile (· != '(')
  if list.isEmpty then .error (.noList (String.ofList (trim cs)))
  else
    let name ← identifier name
    let body ← soleGroup list
    return (name, body)

/-- The text before and after a keyword. -/
def require (keyword : Keyword) (cs : List Char) : Except ParseError (List Char × List Char) :=
  match splitAtWord? keyword.word cs with
  | some p => .ok p
  | none => .error (.missing keyword)

/-- The definition of a column that comes after the given ones. -/
def definition (earlier : List Column) (cs : List Char) : Except ParseError Column := do
  match splitBy (· == ' ') cs with
  | [name, type] =>
    let name ← identifier name
    let type := String.ofList type
    match ColumnType.ofSpelling? type with
    | none => .error (.unsupportedType type name)
    | some t =>
      if earlier.any (·.name == name) then .error (.repeatedColumn name)
      else return ⟨name, t⟩
  | _ => .error (.badDefinition (String.ofList cs))

/-- The definition of a table, after its first words. -/
def parseCreateTable (rest : List Char) : Except ParseError CreateTable := do
  let (table, body) ← nameAndList rest
  let columns ← (splitTop ',' body).foldlM
    (fun earlier part => return earlier ++ [← definition earlier part]) []
  return ⟨table, columns⟩

/-- The definition of an index, after its first words. -/
def parseCreateIndex (rest : List Char) : Except ParseError CreateIndex := do
  let (before, rest) ← require .on rest
  let index ← identifier before
  let (table, body) ← nameAndList rest
  let column ← identifier body
  return ⟨index, table, column⟩

/-- The texts of the literals in a group; an empty group has none. -/
def literals (group : List Char) : List String :=
  if group.isEmpty then [] else (splitTop ',' group).map String.ofList

/-- An insertion, after its first words. -/
def parseInsert (rest : List Char) : Except ParseError Insert := do
  let (before, rest) ← require .values rest
  let (table, body) ← nameAndList before
  let columns ← (splitTop ',' body).mapM identifier
  let rows ← groups rest
  return ⟨table, columns, rows.map literals⟩

/-- The columns that are asked for, or all of them. -/
def parseProjection (cs : List Char) : Except ParseError Projection := do
  let text := trim cs
  if text = ['*'] then return .all
  else return .columns (← (splitTop ',' text).mapM identifier)

/-- The comparison of a column with a literal. -/
def parseFilter (body : List Char) : Except ParseError Filter := do
  match splitTop '=' body with
  | [column, literal] =>
    if literal.isEmpty then .error .noLiteral
    else return ⟨← identifier column, String.ofList literal⟩
  | _ => .error (.badComparison (String.ofList body))

/-- The ranking of a column by its similarity to a vector. -/
def parseRanking (body : List Char) : Except ParseError Ranking := do
  let (before, rest) ← require .with body
  let column ← identifier before
  match readVector rest with
  | .ok vector => return ⟨column, vector⟩
  | .error cause => .error (.badVector cause)

/-- A number of results: less than `2 ^ 64`. -/
def parseLimit (body : List Char) : Except ParseError Nat :=
  match (readUnsigned? body).filter (· < 2 ^ 64) with
  | some n => .ok n
  | none => .error (.badLimit (String.ofList body))

/-- The place of each clause in the text of the clauses, in the order of the clauses. -/
def locateClauses (text : List Char) : Except ParseError (List (Nat × Clause)) :=
  Clause.all.foldlM (fun found clause =>
    match countWord clause.keyword text, splitAtWord? clause.keyword text with
    | 0, _ | _, none => .ok found
    | 1, some (before, _) => .ok (found ++ [(before.length, clause)])
    | _, _ => .error (.repeatedClause clause)) []

/-- Takes the body of a clause into a `SELECT`. -/
def addClause (s : Select) (clause : Clause) (body : List Char) : Except ParseError Select := do
  if body.isEmpty then .error (.emptyClause clause)
  else
    match clause with
    | .where => return { s with filter := some (← parseFilter body) }
    | .groupBy => return { s with groupBy := some (← identifier body) }
    | .orderBy => return { s with orderBy := some (← identifier body) }
    | .limit => return { s with limit := some (← parseLimit body) }
    | .similarity => return { s with ranking := some (← parseRanking body) }

/-- Takes the located clauses of a text into a `SELECT`, one after the other. -/
def addClauses (text : List Char) : Select → List (Nat × Clause) → Except ParseError Select
  | s, [] => return s
  | s, (start, clause) :: rest => do
    let stop := match rest with
      | (next, _) :: _ => next
      | [] => text.length
    let body := trim ((text.take stop).drop (start + clause.keyword.length))
    addClauses text (← addClause s clause body) rest

/-- Whether the places of clauses increase. -/
def inOrder : List (Nat × Clause) → Bool
  | a :: b :: rest => a.1 < b.1 && inOrder (b :: rest)
  | _ => true

/-- A query, after its first word. -/
def parseSelect (rest : List Char) : Except ParseError Select := do
  let (before, rest) ← require .from rest
  let projection ← parseProjection before
  let rest := trimLeft rest
  let table ← identifier (rest.takeWhile (· != ' '))
  let text := trim ((rest.dropWhile (· != ' ')).drop 1)
  let found ← locateClauses text
  if !inOrder found then .error .clauseOrder
  else if (found.head?.map (·.1)).getD (text.length) ≠ 0 then
    .error (.strayText (String.ofList text))
  else addClauses text ⟨table, projection, none, none, none, none, none⟩ found

/-- The statement that a text is, or why it is none. -/
def parse (sql : String) : Except ParseError Statement :=
  let text := squeeze sql.toList
  if text.isEmpty then .error .empty
  else if let some rest := after? "CREATE TABLE ".toList text then
    (parseCreateTable rest).map .createTable
  else if let some rest := after? "CREATE INDEX ".toList text then
    (parseCreateIndex rest).map .createIndex
  else if let some rest := after? "INSERT INTO ".toList text then
    (parseInsert rest).map .insert
  else if let some rest := after? "SELECT ".toList text then
    (parseSelect rest).map .select
  else .error (.unsupported (String.ofList (text.takeWhile (· != ' '))))

end ProvenTables.Sql
