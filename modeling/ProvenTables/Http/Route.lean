import ProvenTables.Json.Shape
import ProvenTables.Storage.Payload

/-!
# Routes

What clients can ask for over HTTP, and the shapes of the bodies of their requests.
-/

namespace ProvenTables.Http

open Json (Shape)

/-- The calls that the service offers. -/
inductive Route where
  | createEntity
  | appendData
  | lookUp
  | embed
  | query
  deriving DecidableEq

namespace Route

/-- Every route. -/
def all : List Route := [createEntity, appendData, lookUp, embed, query]

/-- The path of a route. -/
def path : Route → String
  | createEntity => "/entity"
  | appendData => "/append-data"
  | lookUp => "/sequence/name"
  | embed => "/convert-to-embedding"
  | query => "/query"

/-- The route of a path, if there is one. -/
def ofPath? (path : String) : Option Route := all.find? (·.path = path)

end Route

/-- The names of the column types, which a payload may use. -/
def typeNames : List String :=
  [ColumnType.int, .float, .bool, .string, .datetime, .floats].map ColumnType.name

/-- The shape of a payload. -/
def payloadShape : Shape :=
  .record
    [("columns", .list .text), ("column_types", .map (.name typeNames)),
      ("rows", .list (.list .any))]
    [("indexes", .map (.map (.list (.list .any))))]

/-- The shape that the body of a call must have. -/
def Route.bodyShape : Route → Shape
  | createEntity => .record [("entity_name", .text), ("data", payloadShape)] []
  | appendData => .record [("table_name", .text), ("data", payloadShape)] []
  | lookUp => .record [("entity_name", .text)] []
  | embed => .record [("text", .text)] []
  | query => .record [("query", .text)] [("proof", .flag)]

/-- A call with what its body says. -/
inductive Call where
  | createEntity (name : String) (payload : Payload)
  | appendData (table : String) (payload : Payload)
  | lookUp (name : String)
  | embed (text : String)
  | query (sql : String) (prove : Option Bool)

/-- The text of a field of a body. -/
def textOf? (body : Json) (name : String) : Option String := (body.field? name).bind Json.str?

/-- The payload of a body. -/
def payloadOf? (body : Json) : Option Payload :=
  (body.field? "data").bind fun v => (Payload.ofJson v).toOption

/-- The call that a body asks a route for. -/
def Route.call? (body : Json) : Route → Option Call
  | createEntity => do return .createEntity (← textOf? body "entity_name") (← payloadOf? body)
  | appendData => do return .appendData (← textOf? body "table_name") (← payloadOf? body)
  | lookUp => do return .lookUp (← textOf? body "entity_name")
  | embed => do return .embed (← textOf? body "text")
  | query => do
    return .query (← textOf? body "query") ((body.field? "proof").bind Json.bool?)

end ProvenTables.Http
