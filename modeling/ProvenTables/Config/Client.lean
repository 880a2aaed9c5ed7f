import ProvenTables.Config.Server

/-!
# Configuration of the client

What the client on a data directory is configured with, and its form as a TOML file.
-/

namespace ProvenTables

/-- The configuration of the client. -/
structure ClientConfig where
  dataDir : Option String := none
  outputFormat : String := "table"
  prove : Bool := false
  /-- The time limit of a proof in milliseconds; zero is none. -/
  proofTimeout : UInt64 := 30000
  dimension : UInt64 := 384
  deriving DecidableEq

namespace ClientConfig

/-- The directory of the data, or the default one. -/
def directory (c : ClientConfig) (default : String) : String := c.dataDir.getD default

/-- The configuration of the database that the client opens. -/
def server (c : ClientConfig) (default : String) : ServerConfig where
  dataDir := some (c.directory default)
  proof := { enabled := c.prove, timeout := c.proofTimeout }
  dimension := c.dimension

/-- The text of the file that holds a configuration, if every number is an integer of 64 bits. -/
def render? (c : ClientConfig) : Option String := do
  let timeout ← Toml.natSetting? "proof_timeout_ms" c.proofTimeout.toNat
  let dimension ← Toml.natSetting? "embedding_dimension" c.dimension.toNat
  return (match c.dataDir with
      | some d => Toml.setting "data_dir" (Toml.quoted d)
      | none => "") ++
    Toml.setting "output_format" (Toml.quoted c.outputFormat) ++
    Toml.boolSetting "prove" c.prove ++ timeout ++ dimension

/-- The configuration that the fields of a document stand for. Fields of other names are ignored. -/
def ofFields? (fields : Toml.Fields) : Option ClientConfig := do
  let default : ClientConfig := {}
  return {
    dataDir := ← Toml.settingOr fields "data_dir" default.dataDir fun v => v.string?.map some
    outputFormat := ← Toml.settingOr fields "output_format" default.outputFormat Toml.string?
    prove := ← Toml.settingOr fields "prove" default.prove Toml.boolean?
    proofTimeout := ← Toml.settingOr fields "proof_timeout_ms" default.proofTimeout
      ServerConfig.uint64?
    dimension := ← Toml.settingOr fields "embedding_dimension" default.dimension
      ServerConfig.uint64? }

/-- The configuration that a file holds, if it holds one. -/
def read? (content : String) : Option ClientConfig := (Toml.read? content).bind ofFields?

end ClientConfig

end ProvenTables
