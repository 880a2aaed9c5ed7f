import ProvenTables.CommandLine.Environment
import ProvenTables.Config.Server
import ProvenTables.Text.Numeral

/-!
# The daemon

The program that serves a database. Its settings come from a file, the environment and its
arguments, of which the arguments go first.
-/

namespace ProvenTables.CommandLine.Daemon

/-! ## Arguments -/

/-- The port that a numeral stands for; the numeral may have a sign. -/
def port? (s : String) : Option UInt16 := do
  let n ← Text.readInt? s.toList
  if 0 ≤ n ∧ n < 2 ^ 16 then return UInt16.ofNat n.toNat else none

/-- The time that a numeral stands for. -/
def timeout? (s : String) : Option UInt64 := do
  let n ← Text.readUnsigned? s.toList
  if n < 2 ^ 64 then return UInt64.ofNat n else none

/-- The way to draw challenges that a text names in letters of any case. -/
def mode? (s : String) : Option ChallengeMode := ChallengeMode.ofName? (Text.asciiLower s)

/-- An option whose value is any text. -/
def text : Argument := .value fun _ => true

/-- An option whose value is a path, which is not empty. -/
def path : Argument := .value fun s => !s.isEmpty

/-- The options of the daemon. -/
def usage : Usage where
  parameters :=
    [⟨"host", text, some 'H', some "ZKDB_HOST"⟩,
      ⟨"port", .value fun s => (port? s).isSome, some 'p', some "ZKDB_PORT"⟩,
      ⟨"data-dir", path, some 'd', some "ZKDB_DATA_DIR"⟩,
      ⟨"config", path, some 'c', some "ZKDB_CONFIG"⟩,
      ⟨"memory", .flag, none, none⟩,
      ⟨"prove", .flag, none, some "ZKDB_PROVE"⟩,
      ⟨"proof-timeout-ms", .value fun s => (timeout? s).isSome, none, some "ZKDB_PROOF_TIMEOUT_MS"⟩,
      ⟨"challenge", .value fun s => (mode? s).isSome, none, some "ZKDB_CHALLENGE"⟩,
      ⟨"verbose", .flag, some 'v', none⟩,
      ⟨"log-level", text, none, some "ZKDB_LOG_LEVEL"⟩,
      ⟨"print-config", .flag, none, none⟩,
      ⟨"version", .version, some 'V', none⟩]
  operands := 0
  commands := []

/-! ## Running -/

/-- The configuration with what has been given in place of its own values. -/
def override (g : Given) (c : ServerConfig) : ServerConfig where
  host := (g.value? "host").getD c.host
  port := ((g.value? "port").bind port?).getD c.port
  dataDir := if g.isSet "memory" then none else g.value? "data-dir" <|> c.dataDir
  retry := c.retry
  proof := {
    enabled := c.proof.enabled || g.isSet "prove"
    timeout := ((g.value? "proof-timeout-ms").bind timeout?).getD c.proof.timeout
    challenge := ((g.value? "challenge").bind mode?).getD c.proof.challenge }
  dimension := c.dimension

/-- The configuration of the daemon from its file and its options. -/
def configOf? (env : Environment) (t : FileTree) (g : Given) : Option ServerConfig :=
  (loadConfig? env t "zkdbd.toml" {} ServerConfig.read? (g.value? "config")).map (override g)

/-- What the daemon comes to: it ends, or it serves with a configuration. -/
inductive Outcome where
  | ends (exit : Exit)
  | serves (config : ServerConfig)

/-- The daemon prints something and ends, or serves a configuration. -/
def start (env : Environment) (args : List String) (t : FileTree) : Outcome :=
  match usage.read env.vars args with
  | .error stop => .ends (.ofStop "zkdbd" stop)
  | .ok (g, _) =>
    match configOf? env t g with
    | none => .ends .unreadable
    | some c =>
      if g.isSet "print-config" then
        match c.render? with
        | some content => .ends (.success content)
        | none => .ends (.failure "a number is too large for the configuration file")
      else .serves c

end ProvenTables.CommandLine.Daemon
