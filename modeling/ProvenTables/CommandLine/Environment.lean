import ProvenTables.CommandLine.Arguments
import ProvenTables.FileTree

/-!
# Environments

What a program finds around it: its variables, the folder it works in and the files, and where its
configuration and its data are kept unless it is told otherwise.
-/

namespace ProvenTables.CommandLine

/-- What a program finds around it. -/
structure Environment where
  vars : Variables
  workingFolder : Place

namespace Environment

open FileTree (joinPath)

/-- The value of a variable, if it is set. -/
def value? (env : Environment) (name : String) : Option String := env.vars.lookup name

/-- The home folder, if it is set and not empty. -/
def home? (env : Environment) : Option String :=
  (env.value? "HOME").filter fun path => !path.isEmpty

/-- The folder that a variable names by an absolute path, or else a folder below the home folder. -/
def folder? (env : Environment) (name below : String) : Option String :=
  (env.value? name).filter (·.startsWith "/") <|> env.home?.map (joinPath · below)

/-- The files in which a configuration is looked for, in this order. -/
def configPaths (env : Environment) (name : String) : List String :=
  ((env.folder? "XDG_CONFIG_HOME" ".config").map fun folder =>
      joinPath (joinPath folder "zkdb") name).toList
    ++ (env.home?.map fun folder => joinPath (joinPath folder ".zkdb") name).toList

/-- The data directory of a client that is told no other. -/
def dataPath (env : Environment) : String :=
  joinPath ((env.folder? "XDG_DATA_HOME" ".local/share").getD ".") "zkdb"

end Environment

/-- The configuration in the file that is given, or else in the first file that there is where it is
looked for. Without a file it is the default one; a file that cannot be read gives none. -/
def loadConfig? {α : Type} (env : Environment) (t : FileTree) (name : String) (default : α)
    (read? : String → Option α) (given : Option String) : Option α :=
  let present (path : String) : Bool := (t.find? env.workingFolder path).isSome
  match given <|> (env.configPaths name).find? present with
  | some path => (t.read? env.workingFolder path).bind read?
  | none => some default

/-- What a program prints and returns when it ends. -/
structure Exit where
  code : Nat
  output : String
  errors : List String
  deriving DecidableEq

namespace Exit

/-- The program ends well with an output. -/
def success (output : String) : Exit := ⟨0, output ++ "\n", []⟩

/-- The program ends with a reason for its failure. -/
def failure (reason : String) : Exit := ⟨1, "", ["Error: " ++ reason]⟩

/-- The program ends because its configuration file cannot be read. -/
def unreadable : Exit := failure "the configuration file cannot be read"

/-- A program that is asked for the version, or that does not understand what it is asked for. -/
def ofStop (program : String) : Stop → Exit
  | .version => success (program ++ " 0.1.0")
  | .misused => ⟨2, "", ["error: the arguments are not valid"]⟩

end Exit

end ProvenTables.CommandLine
