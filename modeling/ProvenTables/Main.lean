import ProvenTables.CommandLine.Client
import ProvenTables.CommandLine.Daemon

/-!
# Programs

The client and the daemon as programs: the files that they see are read, a program is run on them,
and the files that it leaves are written.
-/

namespace ProvenTables.CommandLine

/-- The names of the variables that the programs look at. -/
def variableNames : List String :=
  ["HOME", "XDG_CONFIG_HOME", "XDG_DATA_HOME"] ++
    (Client.shared ++ Daemon.usage.parameters).filterMap (·.env)

/-- The variables that are read and the folder that the program is started in. -/
def readEnvironment : IO Environment := do
  let vars ← variableNames.filterMapM fun name => do
    return (← IO.getEnv name).map fun value => (name, value)
  let folder ← IO.currentDir
  return ⟨vars, (FileTree.stepsOf folder.toString).filter fun step => !step.isEmpty⟩

/-- Adds what is at a place. A file that cannot be read counts as a folder. -/
def look (t : FileTree) (p : Place) : IO FileTree := do
  let file := (← IO.currentDir) / p.path
  if ← file.isDir then return t.putEntry p .folder
  else if ← file.pathExists then
    try return t.putEntry p (.file (← IO.FS.readFile file))
    catch _ => return t.putEntry p .folder
  else return t

/-- The places on the way from a folder. -/
def placesOn : Place → List String → List Place
  | _, [] => []
  | p, step :: rest =>
    if step = "" ∨ step = "." then placesOn p rest
    else if step = ".." then placesOn p.dropLast rest
    else (p ++ [step]) :: placesOn (p ++ [step]) rest

/-- Adds what is on the way of a path. -/
def lookAlong (env : Environment) (t : FileTree) (path : String) : IO FileTree :=
  (placesOn (FileTree.startOf env.workingFolder path) (FileTree.stepsOf path)).foldlM look t

/-- The files of the store that a path leads to, added to what is known of the file system. -/
def lookInto (env : Environment) (t : FileTree) (path : String) : IO FileTree := do
  let t ← lookAlong env t path
  match t.find? env.workingFolder path with
  | none => return t
  | some p =>
    let objects := p ++ [Disk.objectsName]
    let t ← [p ++ [Disk.registryName], objects].foldlM look t
    let folder := (← IO.currentDir) / objects.path
    if ← folder.isDir then
      (← folder.readDir).toList.foldlM (fun t e => look t (objects ++ [e.fileName])) t
    else return t

/-- Adds the files in which a configuration may be. -/
def lookForConfig (env : Environment) (name : String) (given : Option String) : IO FileTree :=
  (given.toList ++ env.configPaths name).foldlM (lookAlong env) .empty

/-- Writes the files and folders that are new or changed. -/
def write (before after : FileTree) : IO Unit := do
  for (path, entry) in after.entries.entries do
    if before.entries.get? path ≠ some entry then
      match entry with
      | .folder => IO.FS.createDirAll path
      | .file content =>
        IO.FS.writeFile (path ++ ".new") content
        IO.FS.rename (path ++ ".new") path

/-- What a run prints is printed, and its exit code is returned. -/
def finish (exit : Exit) : IO UInt32 := do
  IO.print exit.output
  exit.errors.forM IO.eprintln
  return UInt32.ofNat exit.code

/-- The client is run on what its arguments let it see of the file system. -/
def runClient (env : Environment) (args : List String) : IO UInt32 := do
  let files ← match Client.parse env.vars args with
    | .error _ => pure FileTree.empty
    | .ok i =>
      let t ← lookForConfig env "config.toml" i.config
      match Client.dataPath? env t i with
      | some path => lookInto env t path
      | none => pure t
  let point := Bytes.toNat (← IO.getRandomBytes 32).toList
  let (exit, after) := Client.run point env args files
  write files after
  finish exit

/-- The daemon is started on its configuration, and ends at once if it cannot serve. -/
def runDaemon (env : Environment) (args : List String) : IO UInt32 := do
  let given := match Daemon.usage.read env.vars args with
    | .ok (g, _) => g.value? "config"
    | .error _ => none
  match Daemon.start env args (← lookForConfig env "zkdbd.toml" given) with
  | .ends exit => finish exit
  | .serves _ => finish (.failure "this program only prints its configuration: use --print-config")

end ProvenTables.CommandLine

/-- Runs the daemon if it is called by its name, and otherwise the client. -/
def main (args : List String) : IO UInt32 := do
  let env ← ProvenTables.CommandLine.readEnvironment
  if (← IO.appPath).fileName = some "zkdbd" then ProvenTables.CommandLine.runDaemon env args
  else ProvenTables.CommandLine.runClient env args
