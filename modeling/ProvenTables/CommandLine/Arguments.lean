/-!
# Arguments

How the arguments of a program are read: options with one or two dashes, values that follow them or
are attached to them, operands, and commands with arguments of their own. An option that is not
given may have its value in the environment.
-/

namespace ProvenTables.CommandLine

/-- The variables of an environment with their values. -/
abbrev Variables := List (String × String)

/-- Why reading arguments comes to an end. -/
inductive Stop where
  /-- The arguments are not those that the program takes. -/
  | misused
  | version
  deriving DecidableEq

/-- The kinds of options. -/
inductive Argument where
  /-- An option without a value. -/
  | flag
  /-- The option that asks for the version. -/
  | version
  /-- An option with a value that must be accepted. -/
  | value (accepts : String → Bool)

/-- Whether a text can be the value of an option. -/
def Argument.accepts : Argument → String → Bool
  | flag, s => s = "true" || s = "false"
  | version, _ => true
  | value accepts, s => accepts s

/-- Whether the argument after an option is its value. -/
def Argument.takesValue : Argument → Bool
  | value _ => true
  | _ => false

/-- An option of a command. -/
structure Parameter where
  name : String
  argument : Argument
  /-- The letter that stands for the name after a single dash. -/
  letter : Option Char := none
  /-- The environment variable that holds the value of an option that is not given. -/
  env : Option String := none

/-- What has been given to a command. -/
structure Given where
  values : List (String × String)
  /-- The values of the environment for options that are not given. -/
  fallbacks : List (String × String)
  operands : List String
  deriving DecidableEq

namespace Given

/-- Nothing is given. -/
def nothing : Given := ⟨[], [], []⟩

/-- The value of an option, which comes from the environment if it has not been given. -/
def value? (g : Given) (name : String) : Option String :=
  g.values.lookup name <|> g.fallbacks.lookup name

/-- Whether a flag has been given. -/
def isSet (g : Given) (name : String) : Bool := g.value? name = some "true"

/-- Gives an option its value, which it may have only once. -/
def give (p : Parameter) (value : String) (g : Given) : Except Stop Given :=
  if p.argument matches .version then .error .version
  else if (g.values.lookup p.name).isSome || !p.argument.accepts value then .error .misused
  else .ok { g with values := g.values ++ [(p.name, value)] }

/-- The flag is given, or it is an error to give it a second time. -/
def mark (p : Parameter) (g : Given) : Except Stop Given := g.give p "true"

/-- Takes the value of an option that is not given from the environment. -/
def complete (env : Variables) (g : Given) (p : Parameter) : Except Stop Given :=
  match (g.values.lookup p.name).isSome, p.env.bind fun name => env.lookup name with
  | false, some value =>
    if p.argument.accepts value then .ok { g with fallbacks := g.fallbacks ++ [(p.name, value)] }
    else .error .misused
  | _, _ => .ok g

/-- What has been given to a program and then to its command, which goes first. -/
def within (inner outer : Given) : Given :=
  ⟨inner.values ++ outer.values, inner.fallbacks ++ outer.fallbacks,
    inner.operands ++ outer.operands⟩

end Given

/-- What a command takes. -/
structure Usage where
  parameters : List Parameter
  operands : Nat
  /-- The names of the commands, one of which must follow if there are any. -/
  commands : List String

namespace Usage

/-- The option that has a name. -/
def named? (u : Usage) (name : String) : Option Parameter :=
  u.parameters.find? fun p => p.name = name

/-- The option that has a letter. -/
def lettered? (u : Usage) (letter : Char) : Option Parameter :=
  u.parameters.find? fun p => p.letter = some letter

/-- Whether an argument is an operand or a value, and not an option. -/
def isPlain (arg : String) : Bool := arg = "-" || !arg.startsWith "-"

/-- The name of an option with two dashes, and the value that is attached to it. -/
def splitLong (cs : List Char) : String × Option String :=
  (String.ofList (cs.takeWhile (· != '=')),
    match cs.dropWhile (· != '=') with
    | [] => none
    | _ :: value => some (String.ofList value))

/-- Reads the letters after a single dash, and gives the option that waits for its value. -/
def readLetters (u : Usage) (g : Given) : List Char → Except Stop (Given × Option Parameter)
  | [] => .ok (g, none)
  | c :: cs =>
    match u.lettered? c with
    | none => .error .misused
    | some p =>
      if p.argument.takesValue then
        match cs with
        | [] => .ok (g, some p)
        | '=' :: value => return (← g.give p (String.ofList value), none)
        | value => return (← g.give p (String.ofList value), none)
      else do u.readLetters (← g.mark p) cs

/-- Reads an option with two dashes, and gives the option that waits for its value. -/
def readLong (u : Usage) (g : Given) (cs : List Char) : Except Stop (Given × Option Parameter) :=
  match u.named? (splitLong cs).1, (splitLong cs).2 with
  | none, _ => .error .misused
  | some p, none =>
    if p.argument.takesValue then .ok (g, some p) else return (← g.mark p, none)
  | some p, some value =>
    if p.argument.takesValue then return (← g.give p value, none) else .error .misused

/-- The command that follows and its arguments, if one follows. -/
abbrev Next := Option (String × List String)

/-- Reads arguments up to a command; `waiting` is an option that waits for its value. -/
def readArgs (u : Usage) : (waiting : Option Parameter) → Given → List String →
    Except Stop (Given × Next)
  | none, g, [] => .ok (g, none)
  | some _, _, [] => .error .misused
  | some p, g, arg :: args => do
    if isPlain arg then u.readArgs none (← g.give p arg) args else .error .misused
  | none, g, arg :: args =>
    match arg.toList with
    | ['-', '-'] => .ok ({ g with operands := g.operands ++ args }, none)
    | '-' :: '-' :: cs => do
      let (g, waiting) ← u.readLong g cs
      u.readArgs waiting g args
    | '-' :: c :: cs => do
      let (g, waiting) ← u.readLetters g (c :: cs)
      u.readArgs waiting g args
    | _ =>
      if arg ∈ u.commands then .ok (g, some (arg, args))
      else if g.operands.length < u.operands then
        u.readArgs none { g with operands := g.operands ++ [arg] } args
      else .error .misused

/-- The given options and operands and the command that follows, or why reading stops. -/
def read (u : Usage) (env : Variables) (args : List String) : Except Stop (Given × Next) := do
  let (g, next) ← u.readArgs none .nothing args
  let g ← u.parameters.foldlM (Given.complete env) g
  if g.operands.length ≠ u.operands then .error .misused
  else if next.isNone && !u.commands.isEmpty then .error .misused
  else return (g, next)

end Usage

end ProvenTables.CommandLine
