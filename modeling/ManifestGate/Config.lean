import ManifestGate.Capability.Registry
import ManifestGate.Json.Record
import ManifestGate.Toml.Document

/-!
# Configuration

Settings come from a TOML file in which every field may be left out. Environment variables override
them; a value that is not valid for its variable is passed over.
-/

namespace ManifestGate

structure EngineConfig where
  /-- Whether error payloads tell the causes of internal errors. -/
  debug : Bool
  capabilityRoot : String
  deriving DecidableEq

structure AclConfig where
  enabled : Bool
  /-- The group whose members may do anything to any object. -/
  adminGroup : String
  deriving DecidableEq

structure LoggingConfig where
  level : String
  dir : Option String
  deriving DecidableEq

structure Config where
  engine : EngineConfig
  acl : AclConfig
  logging : LoggingConfig
  deriving DecidableEq

namespace EngineConfig

def default : EngineConfig := ⟨false, "LENSE"⟩

def ofJson? (json : Json) : Option EngineConfig := do
  let record ← Record.of? .toml ["debug", "capability_root"] json
  let debug ← record.withDefault 0 "debug" Json.bool? default.debug
  let capabilityRoot ← record.withDefault 1 "capability_root" Json.text? default.capabilityRoot
  return { debug, capabilityRoot }

end EngineConfig

namespace AclConfig

def default : AclConfig := ⟨true, "00000000-0000-0000-0000-000000000000"⟩

def ofJson? (json : Json) : Option AclConfig := do
  let record ← Record.of? .toml ["enabled", "admin_group"] json
  let enabled ← record.withDefault 0 "enabled" Json.bool? default.enabled
  let adminGroup ← record.withDefault 1 "admin_group" Json.text? default.adminGroup
  return { enabled, adminGroup }

end AclConfig

namespace LoggingConfig

def default : LoggingConfig := ⟨"info", none⟩

def ofJson? (json : Json) : Option LoggingConfig := do
  let record ← Record.of? .toml ["level", "dir"] json
  let level ← record.withDefault 0 "level" Json.text? default.level
  let dir ← record.withDefault 1 "dir" (Json.nullable? Json.text?) default.dir
  return { level, dir }

end LoggingConfig

/-- The switch that a text sets, in any case. -/
def switch? (text : String) : Option Bool :=
  let word := lowerAscii text
  if word ∈ ["1", "true", "yes", "on"] then some true
  else if word ∈ ["0", "false", "no", "off"] then some false
  else none

namespace Config

def default : Config := ⟨.default, .default, .default⟩

def pathVariable : String := "LENSE_CONFIG_PATH"

def defaultPath : String := "lense.toml"

def ofJson? (json : Json) : Option Config := do
  let record ← Record.of? .toml ["engine", "acl", "logging"] json
  let engine ← record.withDefault 0 "engine" EngineConfig.ofJson? .default
  let acl ← record.withDefault 1 "acl" AclConfig.ofJson? .default
  let logging ← record.withDefault 2 "logging" LoggingConfig.ofJson? .default
  return { engine, acl, logging }

def ofToml? (text : String) : Option Config :=
  (Toml.parse text).bind ofJson?

def override (config : Config) (lookup : String → Option String) : Config where
  engine := {
    debug := ((lookup "LENSE_DEBUG").bind switch?).getD config.engine.debug
    capabilityRoot := ((lookup "LENSE_CAPABILITY_ROOT").filter isIdentifier).getD
      config.engine.capabilityRoot }
  acl := {
    enabled := ((lookup "LENSE_ACL_ENABLED").bind switch?).getD config.acl.enabled
    adminGroup := (lookup "LENSE_ADMIN_GROUP").getD config.acl.adminGroup }
  logging := {
    level := (lookup "LENSE_LOG_LEVEL").getD config.logging.level
    dir := (lookup "LENSE_LOG_DIR").or config.logging.dir }

/-- The directory for a user's own settings below a home directory. -/
def directory (home : String) : String :=
  if home.toList.getLast? = some '/' then home ++ ".lense" else home ++ "/.lense"

end Config

end ManifestGate
