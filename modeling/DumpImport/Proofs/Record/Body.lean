import DumpImport.Proofs.Record.Mapping

namespace DumpImport.Record

open Json

structure Normalized (before after : Option Value) : Prop where
  oid : ∀ v s, before = some v → v.wrapped? Field.oid = some s → after = some (.string s)
  dated : ∀ o : Document, before = some (.object o) → (Value.object o).wrapped? Field.oid = none →
    (∃ f ∈ Field.dates, ∃ v d, Object.get? o f = some v ∧ v.wrapped? Field.date = some d) →
    ∃ o' : Document, after = some (.object o') ∧ Object.keys o' = Object.keys o ∧
      (∀ k, k ∉ Field.dates → Object.get? o' k = Object.get? o k) ∧
      ∀ k ∈ Field.dates, Canonised (Object.get? o k) (Object.get? o' k)
  kept : ∀ v, before = some v → v.wrapped? Field.oid = none →
    (∀ o f w, v = .object o → f ∈ Field.dates → Object.get? o f = some w → w.wrapped? Field.date = none) →
    after = some v

structure Rewritten (before after : Document) : Prop where
  others : ∀ k, k ∉ Field.id :: Field.dates → Object.get? after k = Object.get? before k
  id : Normalized (Object.get? before Field.id) (Object.get? after Field.id)
  dates : ∀ f ∈ [Field.created, Field.removedDate, Field.archivedDate],
    Settled (Object.get? before f) (Object.get? after f)
  keys : Object.keys after =
    if Field.lastModified ∈ Object.keys before then Object.keys before
    else Object.keys before ++ [Field.lastModified]

section Id

lemma hasWrappedDate_iff {o : Document} {f : String} :
    o.hasWrappedDate f = true ↔ ∃ v d, Object.get? o f = some v ∧ v.wrapped? Field.date = some d := by
  rw [Document.hasWrappedDate]
  constructor
  · intro h
    split at h
    · rename_i d hd
      obtain ⟨v, hv, hw⟩ := DateShape.of_eq_wrapped.mp hd
      exact ⟨v, d, hv, hw⟩
    · cases h
  · rintro ⟨v, d, hv, hw⟩
    rw [DateShape.of_eq_wrapped.mpr ⟨v, hv, hw⟩]

lemma withId_of {P : Document → Prop} {o flat : Document} {i : Id} (h : o.withId i = .ok flat) (ho : P o)
    (hi : ∀ w, i.form.isModified = true → i.value = .ok w → P (Object.insert o Field.id w)) : P flat := by
  rw [Document.withId] at h
  split_ifs at h with hm
  · obtain ⟨w, hw, rfl⟩ := map_eq_ok.mp h
    exact hi w hm hw
  · cases h
    exact ho

lemma withId_spec {o flat : Document} {i : Id} (h : o.withId i = .ok flat) (hk : Field.id ∈ Object.keys o) :
    Object.keys flat = Object.keys o ∧ (∀ k, k ≠ Field.id → Object.get? flat k = Object.get? o k) := by
  rw [Document.withId] at h
  split_ifs at h with hm
  · obtain ⟨w, -, rfl⟩ := map_eq_ok.mp h
    exact ⟨(Object.keys_insert o _ w).trans (if_pos hk), fun k hne => Object.get?_insert_ne o w hne⟩
  · cases h
    exact ⟨rfl, fun _ _ => rfl⟩

lemma eq_insert_of_withId {o flat : Document} {i : Id} (h : o.withId i = .ok flat)
    (hm : i.form.isModified = true) : ∃ w, i.value = .ok w ∧ flat = Object.insert o Field.id w := by
  rw [Document.withId, if_pos hm] at h
  exact map_eq_ok.mp h

lemma value_of_flattenedDates {o o' : Document} (hf : o.flattenDates Field.dates = ⟨o', none⟩)
    (hk : (Value.object o).Keyed) (hs : (Value.object o).Stable) {w : Value}
    (h : Id.value ⟨Object.compact o', .flattenedDates⟩ = .ok w) : w = .object o' := by
  have hp := (parse_compact (Id.flattenDates_keyed hf hk)).mp ((Id.value_eq_ok (.inr rfl)).mp h)
  have ho : (Value.object o').Stable :=
    ⟨trivial, holdsMembers_iff.mpr (flattenDates_all (fun _ => trivial) hf (holdsMembers_iff.mp hs.2))⟩
  rw [Value.reread?_stable ho] at hp
  split_ifs at hp
  exact (Option.some.inj hp).symm

lemma normalized_of_reads {o flat : Document} {v : Value} {i : Id} (hv : Object.get? o Field.id = some v)
    (hr : Id.Reads v i) (hk : v.Keyed) (hw : ∀ a, v = .object a → (Value.object a).Whole)
    (h : o.withId i = .ok flat) : Normalized (Object.get? o Field.id) (Object.get? flat Field.id) := by
  rw [hv]
  cases hr with
  | @oid v s wrapped =>
    obtain ⟨w, he, rfl⟩ := eq_insert_of_withId h rfl
    cases he
    rw [Object.get?_insert_self]
    refine ⟨?_, ?_, ?_⟩
    · rintro _ t ⟨⟩ ht
      rw [Option.some.inj (wrapped.symm.trans ht)]
    · rintro a ⟨⟩ ha
      cases wrapped.symm.trans ha
    · rintro _ ⟨⟩ ha
      cases wrapped.symm.trans ha
  | @dates a a' noOid dated flattened =>
    obtain ⟨w, he, rfl⟩ := eq_insert_of_withId h rfl
    obtain rfl := value_of_flattenedDates flattened hk (hw a rfl).stable he
    rw [Object.get?_insert_self]
    obtain ⟨hkeys, hne, hc⟩ := flattenDates_spec flattened
    refine ⟨?_, ?_, ?_⟩
    · rintro _ t ⟨⟩ ht
      cases noOid.symm.trans ht
    · rintro _ ⟨⟩ - -
      exact ⟨a', rfl, hkeys, hne, hc⟩
    · rintro _ ⟨⟩ - hn
      obtain ⟨f, hf, hd⟩ := List.any_eq_true.mp dated
      obtain ⟨u, d, hu, hd⟩ := hasWrappedDate_iff.mp hd
      cases (hn a f u rfl hf hu).symm.trans hd
  | @object a noOid undated =>
    cases h
    rw [hv]
    refine ⟨?_, ?_, ?_⟩
    · rintro _ t ⟨⟩ ht
      cases noOid.symm.trans ht
    · rintro _ ⟨⟩ - ⟨f, hf, u, d, hu, hd⟩
      have := List.any_eq_false.mp undated f hf
      exact absurd (hasWrappedDate_iff.mpr ⟨u, d, hu, hd⟩) this
    · rintro _ ⟨⟩ - -
      rfl
  | @plain v s primitive =>
    cases h
    rw [hv]
    refine ⟨?_, ?_, ?_⟩
    · rintro _ t ⟨⟩ ht
      cases (DateShape.wrapped?_of_primitive? _ primitive).symm.trans ht
    · rintro a ⟨⟩ - -
      cases primitive
    · rintro _ ⟨⟩ - -
      rfl

end Id

lemma Prepares.get?_date {line : String} {o : Document} {u : Unwrapped} {flat : Document} {p : Prepared}
    (h : Prepares line o u flat p) {f : String} {t : DateText} (ht : (f, t) ∈ p.dates.read) :
    Object.get? p.document f = if t.modified then some (.string t.text) else Object.get? u.document f := by
  have hf : f ∈ p.dates.read.map Prod.fst := List.mem_map_of_mem ht
  have hid : Field.id ∉ [Field.created, Field.removedDate, Field.archivedDate] := by decide
  rw [h.document, get?_withDates _ _ (.tail _ ht),
    (withId_spec h.withId h.id_mem_keys).2 f fun he => hid (he ▸ hf)]

lemma Prepares.rewritten {line : String} {o : Document} {u : Unwrapped} {flat : Document} {p : Prepared}
    (h : Prepares line o u flat p)
    (hw : ∀ a, Object.get? u.document Field.id = some (.object a) → (Value.object a).Whole) :
    Rewritten u.document p.document := by
  obtain ⟨v, hv, hr⟩ := reads_of_readId h.id
  obtain ⟨hkeys, hne⟩ := withId_spec h.withId h.id_mem_keys
  obtain ⟨-, -, -, hl⟩ := readDates_eq_ok h.dates
  refine ⟨?_, ?_, ?_, ?_⟩
  · intro k hk
    rw [List.mem_cons, not_or] at hk
    rw [h.document, get?_withDates_of_notMem _ _ hk.2, hne k hk.1]
  · rw [h.document, get?_withDates_of_notMem _ _ (by decide)]
    exact normalized_of_reads hv hr (Object.holds_get? h.keyed.2 hv) (fun a he => hw a (he ▸ hv)) h.withId
  · intro f hf
    obtain ⟨⟨f, t⟩, ht, rfl⟩ := List.mem_map.mp (show f ∈ p.dates.read.map Prod.fst from hf)
    rw [h.get?_date ht]
    exact settled_of_dateText (dateText_of_mem h.dates ht)
  · rw [h.document, keys_withDates flat p.dates, hkeys] <;> rw [hkeys]
    · exact lastModified_of_notMem hl
    · exact fun f t ht hm => modified_mem_keys (dateText_of_mem h.dates ht) hm

/-- A mapped record's body decrypts to the document of its line with nothing changed but the id and
the dates, if the numbers in the id are whole numbers of 64 bits. -/
theorem body_rewritten {m : Mapper} {c : Dump.Collection} {d : Draw} {line : String} {r : Mapped}
    (h : m.map c d line = .ok r) :
    ∃ (o : Document) (u : Unwrapped), parseDocument line = .ok o ∧ o.unwrap = .ok u ∧
      ((∀ a, Object.get? u.document Field.id = some (.object a) → (Value.object a).Whole) →
        ∃ (e : Value) (iv body : String) (b : Document), parse r.envelope = .ok e ∧
        e.at? ["message", "encryption", "initialisationVector"] = some (.string iv) ∧
        e.at? ["message", "dbObject"] = some (.string body) ∧
        Cipher.decrypt m.block m.dataKey.plaintext iv body = .ok (Bytes.ofText (Object.compact b)) ∧
        Rewritten u.document b) := by
  obtain ⟨p, body, v, w, k, hp, hm⟩ := Mapper.maps_of_map h
  obtain ⟨o, u, flat, hpr⟩ := prepares_of_prepare hp
  refine ⟨o, u, hpr.parsed, hpr.unwrapped, fun hw => ?_⟩
  exact ⟨_, body.iv, body.body, p.document, hm.parse_envelope, Envelope.at?_iv _ _ _, Envelope.at?_body _ _ _,
    hm.decrypt, hpr.rewritten hw⟩

theorem body_rewritten_sample : ∃ r,
    Mapper.sample.map .unset Mapper.sampleDraw Mapper.sampleLine = .ok r ∧
    ∃ (e : Value) (iv body : String) (b : Document), parse r.envelope = .ok e ∧
      e.at? ["message", "encryption", "initialisationVector"] = some (.string iv) ∧
      e.at? ["message", "dbObject"] = some (.string body) ∧
      Cipher.decrypt Cipher.Aes.encrypt "AAAAAAAAAAAAAAAAAAAAAA==" iv body =
        .ok (Bytes.ofText (Object.compact b)) ∧
      Rewritten Mapper.sampleDocument b := by
  obtain ⟨r, hr⟩ := Mapper.map_sampleLine
  refine ⟨r, hr, ?_⟩
  obtain ⟨o, u, ho, hu, hb⟩ := body_rewritten hr
  cases Mapper.parseDocument_sampleLine.symm.trans ho
  cases hu
  refine hb ?_
  rintro a ⟨⟩
  exact ⟨trivial, ⟨_, rfl⟩, ⟨trivial, trivial, trivial⟩, trivial⟩

end DumpImport.Record
