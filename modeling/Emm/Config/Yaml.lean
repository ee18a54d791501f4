import Emm.Config
import Emm.Yaml.Document
import Emm.Yaml.Value

/-!
The configuration as YAML. A field that is not written has its default, and one that is not known
is ignored. What is read has to be valid.
-/

namespace Emm

/-- Why a configuration cannot be had from a text. -/
inductive ConfigError
  | malformed (error : Yaml.Error)
  | invalid (setting : Setting)
deriving DecidableEq

def ConfigError.message : ConfigError → String
  | malformed e => "YAML parse error: " ++ e.message
  | invalid setting => "Configuration error: " ++ setting.zeroMessage

namespace NasConfig

def toYaml (c : NasConfig) : Yaml.Value := .mapping
  [(Setting.t3470Interval.key, .natural c.t3470Seconds.toNat),
    (Setting.maxRetransmissions.key, .natural c.maxRetransmissions.toNat),
    (Setting.retryInterval.key, .natural c.retrySeconds.toNat)]

def ofNode (d : Yaml.Document) (n : Yaml.Node) : Except Yaml.Error NasConfig := do
  let fields ← d.fields
    [Setting.t3470Interval.key, Setting.maxRetransmissions.key, Setting.retryInterval.key] n
  let number (s : Setting) (default bound : Nat) : Except Yaml.Error Nat :=
    Yaml.field fields s.key default (d.natural bound)
  let defaults : NasConfig := {}
  return {
    t3470Seconds := .ofNat (← number .t3470Interval defaults.t3470Seconds.toNat UInt64.size)
    maxRetransmissions :=
      .ofNat (← number .maxRetransmissions defaults.maxRetransmissions.toNat UInt32.size)
    retrySeconds := .ofNat (← number .retryInterval defaults.retrySeconds.toNat UInt64.size) }

end NasConfig

namespace Config

def logFilterKey : String := "log_filter"

def nasKey : String := "nas"

def toYaml (c : Config) : Yaml.Value := .mapping
  [(Setting.channelCapacity.key, .natural c.channelCapacity.toNat),
    (logFilterKey, match c.logFilter with
      | some filter => .text filter.toList
      | none => .null),
    (nasKey, c.nas.toYaml)]

def ofNode (d : Yaml.Document) (n : Yaml.Node) : Except Yaml.Error Config := do
  let fields ← d.fields [Setting.channelCapacity.key, logFilterKey, nasKey] n
  let defaults : Config := {}
  return {
    channelCapacity := .ofNat (← Yaml.field fields Setting.channelCapacity.key
      defaults.channelCapacity.toNat (d.natural UInt64.size))
    logFilter := (← Yaml.field fields logFilterKey none d.text?).map String.ofList
    nas := ← Yaml.field fields nasKey defaults.nas (NasConfig.ofNode d) }

/-- Reads a configuration; a blank text is one with all defaults. -/
def ofYaml (text : String) : Except ConfigError Config := do
  let config ← (do
    match ← Yaml.load? text with
    | some d => ofNode d d.root
    | none => return {} : Except Yaml.Error Config).mapError .malformed
  config.validate.mapError .invalid
  return config

def render (c : Config) : String := c.toYaml.render

end Config

end Emm
