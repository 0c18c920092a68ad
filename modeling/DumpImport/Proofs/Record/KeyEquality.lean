import DumpImport.Proofs.Record.Key
import Mathlib.Data.List.Nodup

namespace DumpImport.Record.Key

open Json Text.Utf8

inductive Usable : Value → Object → Prop where
  | object (o : Object) : Usable (.object o) o
  | string (s : String) : Usable (.string s) [("id", .string s)]
  | number (n : Number) : Usable (.number n) [("id", .string n.text)]

lemma Usable.keyed {v : Value} {o : Object} (h : Usable v o) (hk : v.Keyed) : (Value.object o).Keyed := by
  cases h with
  | object => exact hk
  | string s => exact ⟨by simp, trivial, trivial⟩
  | number n => exact ⟨by simp, trivial, trivial⟩

section Envelopes

variable {e : Value} {a : Value}

lemma exists_message (h : e.at? ["message", Field.id] = some a) :
    ∃ eo mo, e = .object eo ∧ Object.get? eo "message" = some (.object mo) ∧
    Object.get? mo Field.id = some a := by
  cases e with
  | object eo =>
    obtain ⟨m, hm, h⟩ := Option.bind_eq_some_iff.mp h
    cases m with
    | object mo =>
      obtain ⟨v, hv, h⟩ := Option.bind_eq_some_iff.mp h
      cases h
      exact ⟨eo, mo, rfl, hm, hv⟩
    | _ => cases h
  | _ => cases h

lemma keyed_of_at? (he : e.Keyed) (h : e.at? ["message", Field.id] = some a) : a.Keyed := by
  obtain ⟨eo, mo, rfl, hm, hv⟩ := exists_message h
  have hmo : (Value.object mo).Keyed := Object.holds_get? he.2 hm
  exact Object.holds_get? hmo.2 hv

lemma ofEnvelope_of_at? (h : e.at? ["message", Field.id] = some a) {o : Object} (hu : Usable a o) :
    ofEnvelope e = ofId o := by
  obtain ⟨eo, mo, rfl, hm, hv⟩ := exists_message h
  have hi : identifier? (.object eo) = some o := by
    cases hu <;> simp only [identifier?, hm, hv]
  rw [ofEnvelope, hi]

end Envelopes

section Sorting

variable {o o' : Object}

lemma sortKeys_keyed (h : (Value.object o).Keyed) : (Value.object (sortKeys o)).Keyed := by
  refine ⟨((sortKeys_perm o).map Prod.fst).nodup_iff.mpr h.1, ?_⟩
  apply holdsMembers_iff.mpr
  intro m hm
  exact holdsMembers_iff.mp h.2 m ((sortKeys_perm o).mem_iff.mp hm)

lemma sortKeys_whole (h : (Value.object o).Whole) : (Value.object (sortKeys o)).Whole := by
  refine ⟨trivial, ?_⟩
  apply holdsMembers_iff.mpr
  intro m hm
  exact holdsMembers_iff.mp h.2 m ((sortKeys_perm o).mem_iff.mp hm)

lemma sortKeys_eq_iff (hn : o.keys.Nodup) (hn' : o'.keys.Nodup) : sortKeys o = sortKeys o' ↔ o.Perm o' := by
  constructor
  · intro h
    have hp := sortKeys_perm o
    rw [h] at hp
    exact hp.symm.trans (sortKeys_perm o')
  · intro h
    have hp : (sortKeys o).Perm (sortKeys o') := (sortKeys_perm o).trans (h.trans (sortKeys_perm o').symm)
    apply hp.eq_of_pairwise ?_ (sortKeys_sorted hn) (sortKeys_sorted hn')
    intro a b _ _ hab hba
    exact absurd hba (List.lt_asymm hab)

end Sorting

lemma ofId_eq_iff {o o' : Object} (hk : (Value.object o).Keyed) (hk' : (Value.object o').Keyed)
    (hw : (Value.object o).Whole) (hw' : (Value.object o').Whole) : ofId o = ofId o' ↔ o.Perm o' := by
  rw [← sortKeys_eq_iff hk.1 hk'.1]
  constructor
  · intro h
    have ht := (List.append_inj h rfl).2
    have hv := encode_render_injective (sortKeys_keyed hk) (sortKeys_keyed hk')
      (sortKeys_whole hw) (sortKeys_whole hw') ht
    exact Value.object.inj hv
  · intro h
    rw [ofId, ofId, h]

/-- Two envelopes with an id each have the same key exactly if their ids are the same but for the
order of the outermost keys; inside, the order of keys tells ids apart too. Numbers inside an id are
whole numbers of 64 bits. -/
theorem key_eq_iff_perm {e e' a a' : Value} {o o' : Object} (he : e.Keyed) (he' : e'.Keyed)
    (ha : e.at? ["message", Field.id] = some a) (ha' : e'.at? ["message", Field.id] = some a')
    (hu : Usable a o) (hu' : Usable a' o') (hw : (Value.object o).Whole) (hw' : (Value.object o').Whole) :
    (ofEnvelope e = ofEnvelope e' ↔ o.Perm o') ∧
    ∀ k inner inner', (k, .object inner) ∈ o → (k, .object inner') ∈ o' → inner ≠ inner' →
      ofEnvelope e ≠ ofEnvelope e' := by
  have hk := hu.keyed (keyed_of_at? he ha)
  have hk' := hu'.keyed (keyed_of_at? he' ha')
  have hiff : ofEnvelope e = ofEnvelope e' ↔ o.Perm o' := by
    rw [ofEnvelope_of_at? ha hu, ofEnvelope_of_at? ha' hu']
    exact ofId_eq_iff hk hk' hw hw'
  refine ⟨hiff, ?_⟩
  intro k inner inner' hm hm' hne heq
  have hmem : (k, Value.object inner) ∈ o' := (hiff.mp heq).mem_iff.mp hm
  have hsame := List.inj_on_of_nodup_map hk'.1 hmem hm' rfl
  exact hne (Value.object.inj (Prod.mk.inj hsame).2)

def sampleEnvelope (id : Object) : Value := .object [("message", .object [(Field.id, .object id)])]

def sampleInner : Object := [("p", .bool true), ("q", .string "\"")]

def sampleOuter (inner : Object) : Object := [("x", .number (.int (.nearest 1))), ("y", .object inner)]

lemma sampleEnvelope_keyed {id : Object} (h : (Value.object id).Keyed) : (sampleEnvelope id).Keyed :=
  ⟨List.nodup_singleton _, ⟨List.nodup_singleton _, h, trivial⟩, trivial⟩

theorem key_eq_iff_perm_sample :
    ofEnvelope (sampleEnvelope (sampleOuter sampleInner)) =
      ofEnvelope (sampleEnvelope (sampleOuter sampleInner).reverse) ∧
    ofEnvelope (sampleEnvelope (sampleOuter sampleInner)) ≠
      ofEnvelope (sampleEnvelope (sampleOuter sampleInner.reverse)) := by
  have hk : (Value.object (sampleOuter sampleInner)).Keyed :=
    ⟨by decide, trivial, ⟨by decide, trivial, trivial, trivial⟩, trivial⟩
  have hw : (Value.object (sampleOuter sampleInner)).Whole :=
    ⟨trivial, ⟨_, rfl⟩, ⟨trivial, trivial, trivial, trivial⟩, trivial⟩
  refine ⟨?_, ?_⟩
  · have hk' : (Value.object (sampleOuter sampleInner).reverse).Keyed :=
      ⟨by decide, ⟨by decide, trivial, trivial, trivial⟩, trivial, trivial⟩
    have hw' : (Value.object (sampleOuter sampleInner).reverse).Whole :=
      ⟨trivial, ⟨trivial, trivial, trivial, trivial⟩, ⟨_, rfl⟩, trivial⟩
    obtain ⟨hiff, -⟩ :=
      key_eq_iff_perm (sampleEnvelope_keyed hk) (sampleEnvelope_keyed hk') rfl rfl (.object _)
        (.object _) hw hw'
    exact hiff.mpr (List.reverse_perm _).symm
  · have hk' : (Value.object (sampleOuter sampleInner.reverse)).Keyed :=
      ⟨by decide, trivial, ⟨by decide, trivial, trivial, trivial⟩, trivial⟩
    have hw' : (Value.object (sampleOuter sampleInner.reverse)).Whole :=
      ⟨trivial, ⟨_, rfl⟩, ⟨trivial, trivial, trivial, trivial⟩, trivial⟩
    obtain ⟨-, hne⟩ :=
      key_eq_iff_perm (sampleEnvelope_keyed hk) (sampleEnvelope_keyed hk') rfl rfl (.object _)
        (.object _) hw hw'
    refine hne "y" sampleInner sampleInner.reverse (by simp [sampleOuter]) (by simp [sampleOuter]) ?_
    simp [sampleInner]

end DumpImport.Record.Key
