import ProvenTables.CommandLine.Environment
import ProvenTables.Config.Client
import ProvenTables.Database.Open
import ProvenTables.Report.Format

/-!
# The client

The program that executes one statement on a data directory, or shows the embedding of a text.
-/

namespace ProvenTables.CommandLine.Client

/-- What the client is asked to do. -/
inductive Action where
  | execute (sql : String) (prove : Bool)
  | embed (text : String)
  deriving DecidableEq

/-- What the client is called with. -/
structure Invocation where
  action : Action
  output : Option Format
  dataDir : Option String
  config : Option String
  deriving DecidableEq

/-! ## Arguments -/

/-- A path that is not empty. -/
def path : Argument := .value fun s => !s.isEmpty

/-- The options that may stand before a command and behind it. -/
def shared : List Parameter :=
  [⟨"data-dir", path, some 'd', some "ZKDB_DATA_DIR"⟩,
    ⟨"config", path, none, some "ZKDB_CLI_CONFIG"⟩, ⟨"verbose", .flag, some 'v', none⟩]

/-- The option for the format of the output. -/
def outputParameter : Parameter :=
  { name := "output", argument := .value fun s => (Format.ofName? s).isSome, letter := some 'o' }

/-- What the client takes before its command. -/
def usage : Usage where
  parameters := shared ++ [⟨"version", .version, some 'V', none⟩]
  operands := 0
  commands := ["execute", "embed"]

/-- What the command that executes a statement takes. -/
def executeUsage : Usage where
  parameters := shared ++ [{ name := "prove", argument := .flag }, outputParameter]
  operands := 1
  commands := []

/-- What the command that embeds a text takes. -/
def embedUsage : Usage where
  parameters := shared ++ [outputParameter]
  operands := 1
  commands := []

/-- What a command takes, by its name. -/
def usageOf (command : String) : Usage := if command = "execute" then executeUsage else embedUsage

/-- What has been given together with the action. -/
def invocation (g : Given) (action : Action) : Invocation where
  action := action
  output := (g.value? "output").bind Format.ofName?
  dataDir := g.value? "data-dir"
  config := g.value? "config"

/-- The invocation that arguments ask for, or why there is none. -/
def parse (vars : Variables) (args : List String) : Except Stop Invocation := do
  match ← usage.read vars args with
  | (outer, some (command, args)) =>
    let (inner, _) ← (usageOf command).read vars args
    let g := inner.within outer
    match g.operands with
    | [text] =>
      return invocation g
        (if command = "execute" then .execute text (g.isSet "prove") else .embed text)
    | _ => .error .misused
  | (_, none) => .error .misused

/-! ## Running -/

/-- The configuration of an invocation, in which an argument overrides the file. -/
def configOf? (env : Environment) (t : FileTree) (i : Invocation) : Option ClientConfig := do
  let c ← loadConfig? env t "config.toml" {} ClientConfig.read? i.config
  return { c with dataDir := i.dataDir <|> c.dataDir }

/-- The directory of the database of an invocation. -/
def dataPath? (env : Environment) (t : FileTree) (i : Invocation) : Option String :=
  (configOf? env t i).map (·.directory env.dataPath)

/-- The format of the output: the one that is asked for, or else the one of the configuration. -/
def formatOf (c : ClientConfig) (i : Invocation) : Except Format.Unknown Format :=
  match i.output with
  | some f => .ok f
  | none => Format.ofName c.outputFormat

/-- Does what is asked for on a database; `point` is the challenge of a proof if it is random. -/
def act (point : Nat) (db : OpenDatabase) (f : Format) : Action → Exit × OpenDatabase
  | .execute sql prove =>
    match db.execute point sql (if prove then some true else none) with
    | (.ok r, db) => (.success (Report.render r f), db)
    | (.error e, db) => (.failure e.message, db)
  | .embed text => (.success (Report.renderEmbedding (db.embed text) f), db)

/-- The data directory of a database, if it is kept in one. -/
def diskOf? (db : OpenDatabase) : Option Disk :=
  match db.medium with
  | .directory d => some d.disk
  | _ => none

/-- The database of a configuration with its folder, which is created if it is not there. -/
def openDatabase (env : Environment) (t : FileTree) (c : ClientConfig) :
    Option (Place × OpenDatabase) × FileTree :=
  let (found, t) := t.openDisk env.workingFolder (c.directory env.dataPath)
  (do
    let (p, disk) ← found
    let db ← (OpenDatabase.inDirectory (c.server env.dataPath) disk).toOption
    return (p, db), t)

/-- What an invocation prints, and the file system after it. -/
def runWith (point : Nat) (env : Environment) (t : FileTree) (i : Invocation) (c : ClientConfig) :
    Exit × FileTree :=
  match openDatabase env t c with
  | (none, t) => (.failure ("failed to open data directory " ++ c.directory env.dataPath), t)
  | (some (p, db), t) =>
    match formatOf c i with
    | .error e => (.failure e.message, t)
    | .ok f =>
      let (exit, db) := act point db f i.action
      (exit, ((diskOf? db).map (t.putDisk p)).getD t)

/-- Runs the client: what it says and the files that it leaves. -/
def run (point : Nat) (env : Environment) (args : List String) (t : FileTree) : Exit × FileTree :=
  match parse env.vars args with
  | .error stop => (.ofStop "zkdb" stop, t)
  | .ok i =>
    match configOf? env t i with
    | none => (.unreadable, t)
    | some c => runWith point env t i c

end ProvenTables.CommandLine.Client
