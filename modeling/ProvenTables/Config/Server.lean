import ProvenTables.Storage.Retry
import ProvenTables.Toml.Decode
import ProvenTables.Toml.Printer
import ProvenTables.Toml.Reader

/-!
# Configuration of a database

What a database is opened with, and its form as a TOML file. Every setting may be missing from a
file.
-/

namespace ProvenTables

/-- How the challenges of proofs are chosen. -/
inductive ChallengeMode where
  | random
  | transcript
  deriving DecidableEq

namespace ChallengeMode

/-- The name of a way to draw challenges. -/
def name : ChallengeMode → String
  | random => "random"
  | transcript => "transcript"

/-- Every way to draw challenges. -/
def all : List ChallengeMode := [random, transcript]

/-- The way to draw challenges that a text names. -/
def ofName? (s : String) : Option ChallengeMode := all.find? (·.name = s)

end ChallengeMode

/-- How often and how soon reads are tried again; times are in milliseconds. -/
structure RetrySettings where
  initial : UInt64 := 100
  longest : UInt64 := 5000
  attempts : UInt32 := 8
  deriving DecidableEq

/-- The policy that settings for retries ask for. -/
def RetrySettings.policy (s : RetrySettings) : RetryPolicy :=
  .ofMillis s.initial.toNat s.longest.toNat s.attempts.toNat

/-- The settings for proofs. -/
structure ProofSettings where
  /-- Whether statements are proved that do not say otherwise. -/
  enabled : Bool := false
  /-- The time limit of a proof in milliseconds; zero is none. -/
  timeout : UInt64 := 30000
  challenge : ChallengeMode := .random
  deriving DecidableEq

/-- The time limit in nanoseconds, if there is one. -/
def ProofSettings.limit? (s : ProofSettings) : Option Nat :=
  if s.timeout = 0 then none else some (s.timeout.toNat * 10 ^ 6)

/-- The configuration of the server. -/
structure ServerConfig where
  host : String := "127.0.0.1"
  port : UInt16 := 8080
  /-- Where the database is kept; without a directory, in memory. -/
  dataDir : Option String := none
  retry : RetrySettings := {}
  proof : ProofSettings := {}
  /-- The dimension of embeddings. -/
  dimension : UInt64 := 384
  deriving DecidableEq

namespace ServerConfig

/-- The address that the server listens on. -/
def socketAddress (c : ServerConfig) : String := c.host ++ ":" ++ toString c.port.toNat

/-- Whether the database is kept in memory only. -/
def isInMemory (c : ServerConfig) : Bool := c.dataDir.isNone

/-! ## TOML -/

/-- The lines of some settings with natural numbers. -/
def natSettings? (settings : List (String × Nat)) : Option String :=
  String.join <$> settings.mapM fun s => Toml.natSetting? s.1 s.2

/-- The text of the file that holds a configuration, if every number is an integer of 64 bits. -/
def render? (c : ServerConfig) : Option String := do
  let dimension ← Toml.natSetting? "embedding_dimension" c.dimension.toNat
  let retry ← natSettings? [("initial_backoff_ms", c.retry.initial.toNat),
    ("max_backoff_ms", c.retry.longest.toNat), ("max_attempts", c.retry.attempts.toNat)]
  let timeout ← Toml.natSetting? "timeout_ms" c.proof.timeout.toNat
  return Toml.setting "host" (Toml.quoted c.host) ++
    Toml.setting "port" (toString c.port.toNat) ++
    (match c.dataDir with
      | some d => Toml.setting "data_dir" (Toml.quoted d)
      | none => "") ++
    dimension ++ Toml.header "retry" ++ retry ++ Toml.header "proof" ++
    Toml.boolSetting "enabled" c.proof.enabled ++ timeout ++
    Toml.setting "challenge" (Toml.quoted c.proof.challenge.name)

/-- The number of sixty-four bits that a value is, if it is one. -/
def uint64? (v : Toml) : Option UInt64 := (v.natBelow? (2 ^ 64)).map UInt64.ofNat

/-- The settings for retries of a group, in which a missing one has its default. -/
def retryOf? (v : Toml) : Option RetrySettings := do
  let fields ← v.group? ["initial_backoff_ms", "max_backoff_ms", "max_attempts"]
  let default : RetrySettings := {}
  return {
    initial := ← Toml.settingOr fields "initial_backoff_ms" default.initial uint64?
    longest := ← Toml.settingOr fields "max_backoff_ms" default.longest uint64?
    attempts := ← Toml.settingOr fields "max_attempts" default.attempts fun v =>
      (v.natBelow? (2 ^ 32)).map UInt32.ofNat }

/-- The settings for proofs of a group, in which a missing one has its default. -/
def proofOf? (v : Toml) : Option ProofSettings := do
  let fields ← v.group? ["enabled", "timeout_ms", "challenge"]
  let default : ProofSettings := {}
  return {
    enabled := ← Toml.settingOr fields "enabled" default.enabled Toml.boolean?
    timeout := ← Toml.settingOr fields "timeout_ms" default.timeout uint64?
    challenge := ← Toml.settingOr fields "challenge" default.challenge fun v =>
      (v.word? (ChallengeMode.all.map ChallengeMode.name)).bind ChallengeMode.ofName? }

/-- The configuration that the fields of a document stand for. Fields of other names are ignored. -/
def ofFields? (fields : Toml.Fields) : Option ServerConfig := do
  let default : ServerConfig := {}
  return {
    host := ← Toml.settingOr fields "host" default.host Toml.string?
    port := ← Toml.settingOr fields "port" default.port fun v =>
      (v.natBelow? (2 ^ 16)).map UInt16.ofNat
    dataDir := ← Toml.settingOr fields "data_dir" default.dataDir fun v => v.string?.map some
    retry := ← Toml.settingOr fields "retry" default.retry retryOf?
    proof := ← Toml.settingOr fields "proof" default.proof proofOf?
    dimension := ← Toml.settingOr fields "embedding_dimension" default.dimension uint64? }

/-- The configuration that a file holds, if it holds one. -/
def read? (content : String) : Option ServerConfig := (Toml.read? content).bind ofFields?

end ServerConfig

end ProvenTables
