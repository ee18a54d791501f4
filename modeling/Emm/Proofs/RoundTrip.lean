import Emm.Config.Yaml
import Emm.Proofs.Yaml.Reading

/-!
A configuration that is written is read back as it was, whatever its numbers and its log filter,
unless it is not valid. Then it is refused, for the first of its settings that must not be zero.

Main statement: `Config.ofYaml_render`.
-/

namespace Emm

open Yaml

namespace NasConfig

theorem ofNode_node (c : NasConfig) (d : Document) : ofNode d c.toYaml.node = .ok c := by
  have h3470 := Document.natural_node (d := d) c.t3470Seconds.toNat_lt c.t3470Seconds.toNat_lt
  have hmax := Document.natural_node (d := d) c.maxRetransmissions.toNat_lt
    (Nat.lt_trans c.maxRetransmissions.toNat_lt (by decide))
  have hretry := Document.natural_node (d := d) c.retrySeconds.toNat_lt c.retrySeconds.toNat_lt
  rw [ofNode, toYaml, Document.fields_node]
  · simp [Yaml.field, List.lookup_cons, Setting.key, h3470, hmax, hretry, bind, Except.bind, pure,
      Except.pure]
  · simp
  · simp [Setting.key]

end NasConfig

namespace Config

theorem ofNode_mapping (c : Config) {d : Document} {v : Value}
    (hfilter : d.text? v.node = .ok (c.logFilter.map String.toList)) :
    ofNode d (Value.mapping
      [(Setting.channelCapacity.key, .natural c.channelCapacity.toNat), (logFilterKey, v),
        (nasKey, c.nas.toYaml)]).node = .ok c := by
  have hcapacity := Document.natural_node (d := d) c.channelCapacity.toNat_lt
    c.channelCapacity.toNat_lt
  have hnas := c.nas.ofNode_node d
  have htext : (c.logFilter.map String.toList).map String.ofList = c.logFilter := by
    cases c.logFilter with
    | none => rfl
    | some filter => simp
  rw [ofNode, Document.fields_node]
  · simp [Yaml.field, List.lookup_cons, Setting.key, logFilterKey, nasKey, hcapacity, hnas, hfilter,
      htext, bind, Except.bind, pure, Except.pure]
  · simp
  · simp [Setting.key, logFilterKey, nasKey]

theorem ofNode_node (c : Config) (d : Document) : ofNode d c.toYaml.node = .ok c := by
  cases hfilter : c.logFilter with
  | none =>
      have htext : d.text? Value.null.node = .ok (c.logFilter.map String.toList) := by
        rw [hfilter]
        exact Document.text?_null
      rw [toYaml, hfilter]
      exact ofNode_mapping c htext
  | some filter =>
      have htext : d.text? (Value.text filter.toList).node =
          .ok (c.logFilter.map String.toList) := by
        rw [hfilter]
        exact Document.text?_node filter.toList
      rw [toYaml, hfilter]
      exact ofNode_mapping c htext

theorem hasKeys_toYaml (c : Config) : c.toYaml.HasKeys := by
  have hnas : c.nas.toYaml.HasKeys := by
    rw [NasConfig.toYaml]
    simp only [Value.HasKeys, Value.FieldsHaveKeys, and_true, true_and]
    exact ⟨.of_name (by decide), .of_name (by decide), .of_name (by decide)⟩
  rw [toYaml]
  simp only [Value.HasKeys, Value.FieldsHaveKeys, and_true, true_and]
  refine ⟨.of_name (by decide), .of_name (by decide), ?_, .of_name (by decide), hnas⟩
  split
  · simp [Value.HasKeys]
  · simp [Value.HasKeys]

/-- What is written of a configuration is read as the configuration, if that is valid. -/
theorem ofYaml_render (c : Config) :
    ofYaml c.render = (c.validate.mapError .invalid).map fun _ => c := by
  have hload : load? c.render = .ok (some { root := c.toYaml.node }) :=
    load?_render (by simp) (hasKeys_toYaml c)
  rw [ofYaml, hload]
  show (ofNode _ c.toYaml.node).mapError ConfigError.malformed >>= _ = _
  rw [ofNode_node]
  show (do
    c.validate.mapError ConfigError.invalid
    return c) = _
  cases c.validate with
  | ok u => rfl
  | error s => rfl

end Config

end Emm
