import ProvenTables.Database.Open
import ProvenTables.Http.ContentType
import ProvenTables.Http.Route
import ProvenTables.Report.Format

/-!
# Service

The answers of a database to requests over HTTP. The path is looked at first, then the method, the
content type, the length of the body and the body itself, and only then the database.
-/

namespace ProvenTables.Http

/-- A request of a client. -/
structure Request where
  method : String
  uri : String
  contentType : Option String
  body : String

/-- What the service answers with. -/
structure Response where
  status : Nat
  /-- The body, if it is JSON. -/
  body : Option Json

namespace Response

/-- A request that is refused before it comes to the database. -/
def refused (status : Nat) : Response := ⟨status, none⟩

/-- The answer to a call that has gone well. -/
def ok (body : Json) : Response := ⟨200, some body⟩

end Response

/-- The status of an answer with an error, by its code. -/
def statusOf : ErrorCode → Nat
  | .syntaxError | .schemaError | .columnMismatch | .typeConversion | .unknownColumn
  | .tableExists | .invalidArgument => 400
  | .unknownTable | .notFound => 404
  | .sequenceConflict => 409
  | .transientFetch => 503
  | _ => 500

/-- The body that reports an error. -/
def errorBody (code : ErrorCode) (message : String) : Json :=
  .obj [("error", .obj [("code", .str code.name), ("category", .str code.category),
    ("message", .str message)])]

/-- The answer to a call that has failed. -/
def failed (e : DatabaseError) : Response :=
  ⟨statusOf e.code, some (errorBody e.code e.message)⟩

/-- The answer to a call by its outcome. -/
def responseOf {α : Type} (body : α → Json) : Except DatabaseError α → Response
  | .ok a => .ok (body a)
  | .error e => failed e

/-- The body with what a statement has returned and its proof. -/
def queryBody (r : Reply) : Json :=
  .obj (("result", r.answer.result.toJson) :: Report.proofFields r.proof)

/-- Answers a call; `point` is the challenge of a proof if it is random. -/
def answer (point : Nat) (db : OpenDatabase) : Call → Response × OpenDatabase
  | .createEntity name payload =>
    let (outcome, db) := db.perform (Database.createEntity name payload)
    (responseOf Pointer.toJson outcome, db)
  | .appendData table payload =>
    let (outcome, db) := db.perform (Database.appendData table payload)
    (responseOf Pointer.toJson outcome, db)
  | .lookUp name =>
    let (outcome, db) := db.perform (Database.pointer name)
    (responseOf Pointer.toJson outcome, db)
  | .embed text => (.ok (Report.jsonOfEmbedding (db.embed text)), db)
  | .query sql prove =>
    let (outcome, db) := db.execute point sql prove
    (responseOf queryBody outcome, db)

/-- The rest of a URI after its scheme and its host, if it begins with them. -/
def afterHost : List Char → List Char
  | '/' :: r => '/' :: r
  | cs =>
    match cs.dropWhile (· != ':') with
    | ':' :: '/' :: '/' :: r => r.dropWhile fun c => c != '/' && c != '?' && c != '#'
    | _ => cs

/-- The path of an address, which ends where the query starts. -/
def pathOf (uri : String) : String :=
  String.ofList ((afterHost uri.toList).takeWhile fun c => c != '?' && c != '#')

/-- The largest body that is read, in bytes. -/
def maxBodyBytes : Nat := 2097152

/-- What a request asks for, or the status with which it is refused. -/
def callOf (r : Request) : Except Nat Call :=
  match Route.ofPath? (pathOf r.uri) with
  | none => .error 404
  | some route =>
    if r.method ≠ "POST" then .error 405
    else if !(r.contentType.map isJsonType).getD false then .error 415
    else if maxBodyBytes < r.body.utf8ByteSize then .error 413
    else
      match route.bodyShape.read r.body with
      | .error .malformed => .error 400
      | .error .mistyped => .error 422
      | .ok body =>
        match route.call? body with
        | some call => .ok call
        | none => .error 422

/-- Responds to a request; `point` is the challenge of a proof if it is random. -/
def respond (point : Nat) (r : Request) (db : OpenDatabase) : Response × OpenDatabase :=
  match callOf r with
  | .ok call => answer point db call
  | .error status => (.refused status, db)

end ProvenTables.Http
