import DumpImport.Proofs.Record.Envelope
import DumpImport.Proofs.Text.Order
import DumpImport.Record.Key

namespace DumpImport.Record.Key

open Json

inductive Wraps : Value → Object → Prop where
  | object (o : Object) : Wraps (.object o) o
  | string (s : String) : Wraps (.string s) [("id", .string s)]

lemma Wraps.unique {v : Value} {o o' : Object} (h : Wraps v o) (h' : Wraps v o') : o = o' := by
  cases h <;> cases h' <;> rfl

lemma Wraps.nodup {v : Value} {o : Object} (h : Wraps v o) (hk : v.Keyed) : o.keys.Nodup := by
  cases h with
  | object => exact hk.1
  | string s => simp

lemma identifier?_value {v : Value} {o : Object} (h : Wraps v o) (s : Stamp) (c : Content) :
    identifier? (Envelope.value s c v) = some o := by
  cases h <;> rfl

lemma ofText_value {v w : Value} {o : Object} (hk : v.Keyed) (hr : v.reread? 125 = some w) (h : Wraps w o)
    (s : Stamp) (c : Content) : ofText (Envelope.value s c v).compact = .ok (ofId o) := by
  rw [ofText, (Envelope.parse_value s c hk).mpr ⟨w, hr, rfl⟩]
  simp only [ofEnvelope, identifier?_value h]

lemma reread?_of_ofText {v : Value} {k : Bytes} (hk : v.Keyed) {s : Stamp} {c : Content}
    (h : ofText (Envelope.value s c v).compact = .ok k) : ∃ w, v.reread? 125 = some w := by
  rw [ofText] at h
  rcases hp : parse (Envelope.value s c v).compact with e | u <;> rw [hp] at h
  · cases h
  · obtain ⟨w, hw, -⟩ := (Envelope.parse_value s c hk).mp hp
    exact ⟨w, hw⟩

lemma ofId_ne_nil (o : Object) : ofId o ≠ [] := by
  simp [ofId, bigEndian]

lemma sortKeys_perm (o : Object) : (sortKeys o).Perm o := List.mergeSort_perm o _

lemma sortKeys_sorted {o : Object} (h : o.keys.Nodup) :
    (sortKeys o).Pairwise fun a b => Bytes.ofText a.1 < Bytes.ofText b.1 := by
  have hle : (sortKeys o).Pairwise fun a b => decide (a.1 ≤ b.1) = true := by
    apply List.pairwise_mergeSort
    · intro a b c hab hbc
      rw [decide_eq_true_iff] at hab hbc ⊢
      exact String.le_trans hab hbc
    · intro a b
      rw [Bool.or_eq_true, decide_eq_true_iff, decide_eq_true_iff]
      exact String.le_total a.1 b.1
  have hne : (sortKeys o).Pairwise fun a b => a.1 ≠ b.1 :=
    List.pairwise_map.mp (((sortKeys_perm o).map Prod.fst).nodup_iff.mpr h)
  refine hle.imp₂ (fun a b hab hn => ?_) hne
  apply Text.Utf8.ofText_lt
  rw [← String.not_le]
  exact fun hba => hn (String.le_antisymm (of_decide_eq_true hab) hba)

end DumpImport.Record.Key
