import DumpImport.Proofs.Json.RoundTrip
import DumpImport.Record.Envelope

namespace DumpImport

def Json.Value.at? : List String → Json.Value → Option Json.Value
  | [], v => some v
  | k :: ks, .object o => (Json.Object.get? o k).bind (at? ks)
  | _ :: _, _ => none

namespace Record.Envelope

open Json

variable (s : Stamp) (c : Content)

lemma encryption_nodup : (encryption c).keys.Nodup := by
  simp only [encryption, Object.keys, List.map]
  decide

lemma message_nodup (v : Value) : (message c v).keys.Nodup := by
  simp only [message, Object.keys, List.map]
  decide

lemma value_keyed {v : Value} (h : v.Keyed) : (value s c v).Keyed := by
  refine ⟨by simp only [Object.keys, List.map]; decide, ?_⟩
  refine ⟨trivial, trivial, trivial, trivial, trivial, ⟨message_nodup c v, ?_⟩, trivial⟩
  exact ⟨trivial, h, trivial, trivial, trivial, trivial, trivial, trivial, trivial, trivial, trivial,
    trivial, trivial, trivial, ⟨encryption_nodup c, trivial, trivial, trivial, trivial⟩, trivial⟩

lemma value_reread? (v : Value) (d : Nat) :
    (value s c v).reread? (d + 3) = (v.reread? (d + 1)).map (value s c) := by
  cases h : v.reread? (d + 1) with
  | none => simp [value, message, Value.reread?, rereadMembers?, h]
  | some w => simp [value, message, encryption, Value.reread?, rereadMembers?, h]

lemma parse_value {v w : Value} (h : v.Keyed) :
    parse (value s c v).compact = .ok w ↔ ∃ u, v.reread? 125 = some u ∧ w = value s c u := by
  rw [parse_compact (value_keyed s c h), maxDepth, value_reread? s c v 124, Option.map_eq_some_iff]
  simp [eq_comm]

section Fields

variable (v : Value)

lemma at?_body : (value s c v).at? ["message", "dbObject"] = some (.string c.body.body) := rfl

lemma at?_iv :
    (value s c v).at? ["message", "encryption", "initialisationVector"] = some (.string c.body.iv) :=
  rfl

lemma at?_lastModified :
    (value s c v).at? ["message", Field.lastModified] = some (.string c.lastModified.text) := rfl

lemma at?_source :
    (value s c v).at? ["message", "timestamp_created_from"] = some (.string c.lastModified.source.name) := rfl

end Fields

end Record.Envelope

end DumpImport
