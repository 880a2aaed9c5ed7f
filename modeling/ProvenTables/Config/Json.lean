import ProvenTables.Config.Client
import ProvenTables.Json.Record

/-!
# Configurations as JSON

The settings of a configuration as the fields of an object. A field that is missing is taken from a
configuration that is given.
-/

namespace ProvenTables

/-- The value of a setting, or the default if it is missing. -/
def jsonSettingOr {α : Type} (default : α) (decode : Json → Option α) : Option Json → Option α
  | some v => decode v
  | none => some default

/-- A text that may be null. -/
def textOrNull? : Json → Option (Option String)
  | .null => some none
  | v => v.str?.map some

/-- A text, or null in its place. -/
def textOrNull (s : Option String) : Json := (s.map Json.str).getD .null

/-- The number of sixty-four bits that a document is, if it is one. -/
def jsonWord64? (v : Json) : Option UInt64 := (v.natBelow? (2 ^ 64)).map UInt64.ofNat

namespace RetrySettings

/-- The record of the settings for retries. -/
def toJson (s : RetrySettings) : Json :=
  .obj [("initial_backoff_ms", .nat s.initial.toNat), ("max_backoff_ms", .nat s.longest.toNat),
    ("max_attempts", .nat s.attempts.toNat)]

/-- The settings for retries of a document, in which a missing one has its default. -/
def ofJson? (default : RetrySettings) (v : Json) : Option RetrySettings := do
  match ← v.record? ["initial_backoff_ms", "max_backoff_ms", "max_attempts"] with
  | [initial, longest, attempts] =>
    return ⟨← jsonSettingOr default.initial jsonWord64? initial,
      ← jsonSettingOr default.longest jsonWord64? longest,
      ← jsonSettingOr default.attempts (fun v => (v.natBelow? (2 ^ 32)).map UInt32.ofNat) attempts⟩
  | _ => none

end RetrySettings

/-- A mode: its name, or an object with the name as its only field and null under it. -/
def ChallengeMode.ofJson? : Json → Option ChallengeMode
  | .str s => ofName? s
  | .obj [(s, .null)] => ofName? s
  | _ => none

namespace ProofSettings

/-- The record of the settings for proofs. -/
def toJson (s : ProofSettings) : Json :=
  .obj [("enabled", .bool s.enabled), ("timeout_ms", .nat s.timeout.toNat),
    ("challenge", .str s.challenge.name)]

/-- The settings for proofs of a document, in which a missing one has its default. -/
def ofJson? (default : ProofSettings) (v : Json) : Option ProofSettings := do
  match ← v.record? ["enabled", "timeout_ms", "challenge"] with
  | [enabled, timeout, challenge] =>
    return ⟨← jsonSettingOr default.enabled Json.bool? enabled,
      ← jsonSettingOr default.timeout jsonWord64? timeout,
      ← jsonSettingOr default.challenge ChallengeMode.ofJson? challenge⟩
  | _ => none

end ProofSettings

namespace ServerConfig

/-- The record of a configuration of the server. -/
def toJson (c : ServerConfig) : Json :=
  .obj [("host", .str c.host), ("port", .nat c.port.toNat), ("data_dir", textOrNull c.dataDir),
    ("retry", c.retry.toJson), ("proof", c.proof.toJson),
    ("embedding_dimension", .nat c.dimension.toNat)]

/-- The configuration of the server of a document, in which a missing field has its default. -/
def ofJson? (default : ServerConfig) (v : Json) : Option ServerConfig := do
  match ← v.record? ["host", "port", "data_dir", "retry", "proof", "embedding_dimension"] with
  | [host, port, dataDir, retry, proof, dimension] =>
    return ⟨← jsonSettingOr default.host Json.str? host,
      ← jsonSettingOr default.port (fun v => (v.natBelow? (2 ^ 16)).map UInt16.ofNat) port,
      ← jsonSettingOr default.dataDir textOrNull? dataDir,
      ← jsonSettingOr default.retry (RetrySettings.ofJson? default.retry) retry,
      ← jsonSettingOr default.proof (ProofSettings.ofJson? default.proof) proof,
      ← jsonSettingOr default.dimension jsonWord64? dimension⟩
  | _ => none

end ServerConfig

namespace ClientConfig

/-- The record of a configuration of the client. -/
def toJson (c : ClientConfig) : Json :=
  .obj [("data_dir", textOrNull c.dataDir), ("output_format", .str c.outputFormat),
    ("prove", .bool c.prove), ("proof_timeout_ms", .nat c.proofTimeout.toNat),
    ("embedding_dimension", .nat c.dimension.toNat)]

end ClientConfig

end ProvenTables
