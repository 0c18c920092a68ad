import DumpImport.Proofs.Json.Parsed
import DumpImport.Proofs.Json.RoundTrip
import DumpImport.Proofs.Record.Deletion
import DumpImport.Record.Mapping

/-! Documents on their way through the wrappers: every key still stands once, and no value gets in
that was not in the line already, but for a string. -/

namespace DumpImport.Record

open Json

lemma parseDocument_eq_ok {line : String} {o : Document} :
    parseDocument line = .ok o ↔ parse line = .ok (.object o) := by
  rw [parseDocument]
  cases parse line with
  | error e => simp
  | ok v => cases v <;> simp

lemma isRead_of_parseDocument {line : String} {o : Document} (h : parseDocument line = .ok o) :
    (Value.object o).IsRead maxDepth :=
  isRead_of_parse (parseDocument_eq_ok.mp h)

lemma parseDocument_keyed {line : String} {o : Document} (h : parseDocument line = .ok o) :
    (Value.object o).Keyed :=
  (isRead_of_parseDocument h).keyed

lemma copy_keyed {source target : Document}
    (hs : (Value.object source).Keyed) (ht : (Value.object target).Keyed)
    (field : String) : (Value.object (Document.copy field source target)).Keyed := by
  rw [Document.copy]
  cases hg : Object.get? source field with
  | none => exact ht
  | some v => exact Value.keyed_insert ht (Object.holds_get? hs.2 hg) field

lemma Deletion.event_keyed (d : Deletion) {outer inner : Document} (ho : (Value.object outer).Keyed)
    (hi : (Value.object inner).Keyed) : (Value.object (d.event outer inner)).Keyed := by
  have hc := copy_keyed ho (copy_keyed ho (copy_keyed ho hi Field.lastModified) d.dateField) Field.timestamp
  exact Value.keyed_insert (v := .string deleteType) hc trivial Field.type

lemma Deletion.unwrap_keyed (d : Deletion) {o : Document} {u : Document × Bool} (h : d.unwrap o = .ok u)
    (ho : (Value.object o).Keyed) : (Value.object u.1).Keyed := by
  rcases d.unwrap_eq_ok h with ⟨-, rfl⟩ | ⟨i, hi, rfl⟩
  · exact ho
  · exact d.event_keyed ho (Object.holds_get? ho.2 hi)

lemma unwrap_keyed {o : Document} {u : Unwrapped} (h : Document.unwrap o = .ok u)
    (ho : (Value.object o).Keyed) : (Value.object u.document).Keyed := by
  obtain ⟨o₁, hr, ha⟩ := unwrap_eq_ok_iff.mp h
  exact Deletion.archived.unwrap_keyed ha (Deletion.removed.unwrap_keyed hr ho)

section Members

structure Hereditary (P : Value → Prop) : Prop where
  string : ∀ s, P (.string s)
  members : ∀ {o : Object}, P (.object o) → o.All P

variable {P : Value → Prop}

lemma copy_all {source target : Document} (hs : Object.All P source)
    (ht : Object.All P target) (field : String) : Object.All P (Document.copy field source target) := by
  rw [Document.copy]
  cases hg : Object.get? source field with
  | none => exact ht
  | some v => exact ht.insert (hs.get? hg) field

lemma Deletion.event_all (hp : Hereditary P) (d : Deletion) {outer inner : Document} (ho : Object.All P outer)
    (hi : Object.All P inner) : Object.All P (d.event outer inner) := by
  have hc := copy_all ho (copy_all ho (copy_all ho hi Field.lastModified) d.dateField) Field.timestamp
  exact hc.insert (hp.string deleteType) Field.type

lemma Deletion.unwrap_all (hp : Hereditary P) (d : Deletion) {o : Document} {u : Document × Bool}
    (h : d.unwrap o = .ok u) (ho : Object.All P o) : Object.All P u.1 := by
  rcases d.unwrap_eq_ok h with ⟨-, rfl⟩ | ⟨i, hi, rfl⟩
  · exact ho
  · exact d.event_all hp ho (hp.members (ho.get? hi))

lemma unwrap_all (hp : Hereditary P) {o : Document} {u : Unwrapped} (h : Document.unwrap o = .ok u)
    (ho : Object.All P o) : Object.All P u.document := by
  obtain ⟨o₁, hr, ha⟩ := unwrap_eq_ok_iff.mp h
  exact Deletion.archived.unwrap_all hp ha (Deletion.removed.unwrap_all hp hr ho)

end Members

section Legible

def Document.Legible (o : Document) : Prop := (Value.object o).Keyed ∧ (Value.object o).Fits maxDepth

variable {o : Document}

lemma Document.Legible.insert (h : o.Legible) {v : Value} (hk : v.Keyed) (hf : v.Fits 126) (k : String) :
    Document.Legible (Object.insert o k v) :=
  ⟨Value.keyed_insert h.1 hk k, Value.Fits.object_iff.mpr ((Value.Fits.object_iff.mp h.2).insert hf k)⟩

lemma parseDocument_compact_iff {o' : Document} (hk : (Value.object o).Keyed) :
    parseDocument (Object.compact o) = .ok o' ↔ (Value.object o).reread? maxDepth = some (.object o') :=
  parseDocument_eq_ok.trans (parse_compact hk)

lemma parseDocument_compact (h : o.Legible) : parseDocument (Object.compact o) = .ok o :=
  (parseDocument_compact_iff h.1).mpr h.2.reread?

end Legible

end DumpImport.Record
