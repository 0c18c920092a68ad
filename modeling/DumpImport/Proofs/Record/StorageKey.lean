import DumpImport.Load.Line
import DumpImport.Proofs.Record.Mapping

namespace DumpImport.Record

open Json

lemma Key.ofText_congr {s s' : Stamp} {c c' : Content} {t t' : String} (hi : c.id.value = c'.id.value)
    (ht : Envelope.build s c = .ok t) (ht' : Envelope.build s' c' = .ok t') {k : Bytes}
    (hk : Key.ofText t = .ok k) : Key.ofText t' = .ok k := by
  obtain ⟨v, hv, ht⟩ := bind_eq_ok.mp ht
  obtain ⟨v', hv', ht'⟩ := bind_eq_ok.mp ht'
  cases ht
  cases ht'
  rw [hi, hv'] at hv
  cases hv
  have hvk := Id.value_keyed hv'
  obtain ⟨w, hw⟩ := Key.reread?_of_ofText hvk hk
  rw [Key.ofText, (Envelope.parse_value s c hvk).mpr ⟨w, hw, rfl⟩] at hk
  rw [Key.ofText, (Envelope.parse_value s' c' hvk).mpr ⟨w, hw, rfl⟩, ← hk]
  cases w <;> rfl

lemma Key.ofText_build {s : Stamp} {c : Content} {v : Value} {o : Object} (hv : c.id.value = .ok v)
    (ho : Key.Wraps v o) (hw : v.Whole) (hd : v.depth ≤ 125) :
    ∃ t, Envelope.build s c = .ok t ∧ Key.ofText t = .ok (Key.ofId o) := by
  have hr : v.reread? 125 = some v := by rw [Value.reread?_whole hw, if_pos hd]
  refine ⟨_, by rw [Envelope.build, hv]; rfl, ?_⟩
  exact Key.ofText_value (Id.value_keyed hv) hr ho s c

namespace Mapper

variable {m m' : Mapper} {c c' : Dump.Collection} {d d' : Draw} {line : String} {r r' : Mapped}

lemma key_ne_nil (h : m.map c d line = .ok r) : r.key ≠ [] := by
  obtain ⟨p, body, v, w, o, -, hm⟩ := maps_of_map h
  rw [hm.key]
  exact Key.ofId_ne_nil o

lemma key_unique (h : m.map c d line = .ok r) (h' : m'.map c' d' line = .ok r') : r.key = r'.key := by
  obtain ⟨p, body, v, w, o, hp, hm⟩ := maps_of_map h
  obtain ⟨p', body', v', w', o', hp', hm'⟩ := maps_of_map h'
  cases hp.symm.trans hp'
  cases hm.id.symm.trans hm'.id
  cases hm.reread.symm.trans hm'.reread
  rw [hm.key, hm'.key, hm.wraps.unique hm'.wraps]

lemma route_keep (h : m.map c d line = .ok r) (hk : r.verdict = .keep) {μ : Type → Type} [Monad μ]
    (l : Load.Loader μ) (s : Load.Summary) : l.route s r = pure (.write r) := by
  have hn : r.key.isEmpty = false := by
    rw [List.isEmpty_eq_false_iff]
    exact key_ne_nil h
  rw [Load.Loader.route, hk]
  simp [hn]

end Mapper

/-- The key of an envelope is the checksum and the text of its id with the keys in byte order,
whatever else the envelope holds; so the key of a mapped record is never empty, never sends the
record down the branch for empty keys, and is the same for every mapper. -/
theorem key_of_id_alone :
    (∀ (s : Stamp) (c : Content) (v : Value) (o : Object), c.id.value = .ok v → Key.Wraps v o → v.Whole →
      v.depth ≤ 125 →
      ∃ (t : String) (ms : Object), Envelope.build s c = .ok t ∧ ms.Perm o ∧
        (ms.Pairwise fun a b => Bytes.ofText a.1 < Bytes.ofText b.1) ∧
        Key.ofText t = .ok (Key.bigEndian (Gzip.crc32 (Bytes.ofText (Object.compact ms))) ++
          Bytes.ofText (Object.compact ms))) ∧
    (∀ (s s' : Stamp) (c c' : Content) (t t' : String) (k : Bytes), c.id.value = c'.id.value →
      Envelope.build s c = .ok t → Envelope.build s' c' = .ok t' → Key.ofText t = .ok k →
        Key.ofText t' = .ok k) ∧
    (∀ (m : Mapper) (c : Dump.Collection) (d : Draw) (line : String) (r : Mapped), m.map c d line = .ok r →
      r.key ≠ [] ∧
      (r.verdict = .keep → ∀ (μ : Type → Type) [Monad μ] (l : Load.Loader μ) (n : Load.Summary),
        l.route n r = pure (.write r)) ∧
      ∀ (m' : Mapper) (c' : Dump.Collection) (d' : Draw) (r' : Mapped), m'.map c' d' line = .ok r' →
        r.key = r'.key) := by
  refine ⟨fun s c v o hv ho hw hd => ?_, fun s s' c c' t t' k hi ht ht' hk => Key.ofText_congr hi ht ht' hk,
    fun m c d line r h => ?_⟩
  · obtain ⟨t, ht, hk⟩ := Key.ofText_build (s := s) hv ho hw hd
    have hn := ho.nodup (Id.value_keyed hv)
    refine ⟨t, Key.sortKeys o, ht, Key.sortKeys_perm o, Key.sortKeys_sorted hn, ?_⟩
    rw [hk, Bytes.ofText, Object.compact, Value.compact, String.toList_ofList, Key.ofId]
  · exact ⟨Mapper.key_ne_nil h, fun hk μ _ l n => Mapper.route_keep h hk l n,
      fun m' c' d' r' h' => Mapper.key_unique h h'⟩

def sampleId : Id := ⟨"\x7b\"b\":1,\"a\":\"x\"\x7d", .object⟩

def sampleMembers : Object := [("b", .number (.int (.nearest 1))), ("a", .string "x")]

def sampleContent (database : String) : Content :=
  ⟨[], sampleId, ⟨epochDate, .epoch⟩, ⟨false, false, false, false, false⟩, ⟨"", ""⟩,
    ⟨"", "", ""⟩, database, ""⟩

lemma value_sampleId : sampleId.value = .ok (.object sampleMembers) := by
  have ht : sampleId.text = Object.compact sampleMembers := by decide +kernel
  have hl : Document.Legible sampleMembers :=
    ⟨⟨by decide, trivial, trivial, trivial⟩, ⟨trivial, rfl, trivial, trivial⟩, by decide⟩
  have hp : parse sampleId.text = .ok (.object sampleMembers) := by
    rw [ht, parseDocument_eq_ok.mp (parseDocument_compact hl)]
  exact (Id.value_eq_ok (.inl rfl)).mpr hp

theorem key_of_id_alone_sample :
    ∃ (s : Stamp) (t t' : String) (ms : Object) (r : Mapped),
      Envelope.build s (sampleContent "db") = .ok t ∧
      Envelope.build s (sampleContent "\",\"_id\":\x7b\"n\":2\x7d,\"db\":\"") = .ok t' ∧
      ms.Perm sampleMembers ∧ (ms.Pairwise fun a b => Bytes.ofText a.1 < Bytes.ofText b.1) ∧
      Key.ofText t' = .ok (Key.bigEndian (Gzip.crc32 (Bytes.ofText (Object.compact ms))) ++
        Bytes.ofText (Object.compact ms)) ∧
      Mapper.sample.map .unset Mapper.sampleDraw Mapper.sampleLine = .ok r ∧ r.key ≠ [] ∧
      ∀ (μ : Type → Type) [Monad μ] (l : Load.Loader μ) (n : Load.Summary),
        l.route n r = pure (.write r) := by
  obtain ⟨hb, hc, hm⟩ := key_of_id_alone
  obtain ⟨r, hr⟩ := Mapper.map_sampleLine
  obtain ⟨hn, hw, -⟩ := hm _ _ _ _ _ hr
  obtain ⟨t, ms, ht, hp, hs, hk⟩ :=
    hb ⟨"", "", ""⟩ (sampleContent "db") _ sampleMembers value_sampleId (.object _)
      ⟨trivial, ⟨_, rfl⟩, trivial, trivial⟩ (by decide)
  have ht' : Envelope.build ⟨"", "", ""⟩ (sampleContent "\",\"_id\":\x7b\"n\":2\x7d,\"db\":\"") =
      .ok (Envelope.value ⟨"", "", ""⟩ _ _).compact :=
    bind_eq_ok.mpr ⟨_, value_sampleId, rfl⟩
  have hi : (sampleContent "db").id.value = (sampleContent "\",\"_id\":\x7b\"n\":2\x7d,\"db\":\"").id.value :=
    congrArg Id.value (Eq.refl sampleId)
  have hk' := hc _ _ _ _ _ _ _ hi ht ht' hk
  exact ⟨_, t, _, ms, r, ht, ht', hp, hs, hk', hr, hn, hw (Mapper.verdict_sampleLine hr)⟩

end DumpImport.Record
