import DumpImport.Proofs.Record.Deletion
import DumpImport.Proofs.Record.Normalization
import DumpImport.Proofs.Record.Serialization
import DumpImport.Proofs.Text.Padding

namespace DumpImport.Record

open Json

def Envelope.Flags (e : Value) (k : String) (p : Prop) : Prop :=
  ∃ x, e.at? ["message", k] = some (.bool x) ∧ (x = true ↔ p)

section Dates

variable {o : Document} {f : String} {t : DateText} {before after : Option Value}

lemma trim_canonical (t : Time.Instant) : Text.trim t.canonical ≠ "" := by
  apply Text.Closed.trim_ne
  exact ⟨t.stamp.toList ++ "+000".toList, '0', by simp [Time.Instant.canonical], by decide⟩

lemma trim_of_canonicalDate {d s : String} (h : canonicalDate d = .ok s) : Text.trim s ≠ "" := by
  obtain ⟨t, -, rfl⟩ := map_eq_ok.mp h
  exact trim_canonical t

lemma altered_iff (h : o.dateText f = .ok t) :
    t.altered = true ↔ ∃ d, DateShape.of (Object.get? o f) = .wrapped d := by
  rw [Document.dateText] at h
  cases hs : DateShape.of (Object.get? o f) with
  | wrapped d =>
    rw [hs] at h
    obtain ⟨c, hc, rfl⟩ := map_eq_ok.mp h
    refine iff_of_true ?_ ⟨d, rfl⟩
    simpa [DateText.altered] using trim_of_canonicalDate hc
  | absent | plain | malformed =>
    rw [hs] at h
    cases h
    apply iff_of_false
    · -- what was blanked is modified too, but there is nothing in it
      intro ha
      cases ha
    · rintro ⟨d, hd⟩
      cases hd

structure DateAccount (e : Value) (k : String) (before after : Option Value) : Prop where
  flag : Envelope.Flags e k (∃ v d, before = some v ∧ v.wrapped? Field.date = some d)
  canonical : ∀ v d, before = some v → v.wrapped? Field.date = some d →
    ∃ s, canonicalDate d = .ok s ∧ after = some (.string s)
  blanked : (∀ v, before = some v → v.wrapped? Field.date = none) → after ≠ before →
    after = some (.string "") ∧
      (before = some .null ∨ (∃ vs, before = some (.array vs)) ∨ ∃ ms, before = some (.object ms))

lemma bracketed_of_primitive? {v : Value} (h : v.primitive? = none) :
    v = .null ∨ (∃ vs, v = .array vs) ∨ ∃ ms, v = .object ms := by
  cases v with
  | null => exact .inl rfl
  | array vs => exact .inr (.inl ⟨vs, rfl⟩)
  | object ms => exact .inr (.inr ⟨ms, rfl⟩)
  | bool | number | string => cases h

lemma Settled.blanked_of_ne (h : Settled before after)
    (hw : ∀ v, before = some v → v.wrapped? Field.date = none) (hne : after ≠ before) :
    after = some (.string "") ∧
      (before = some .null ∨ (∃ vs, before = some (.array vs)) ∨ ∃ ms, before = some (.object ms)) := by
  have hex : ∃ v, before = some v ∧ v.primitive? = none := by
    by_contra hn
    push Not at hn
    exact hne (h.kept hn)
  obtain ⟨v, rfl, hp⟩ := hex
  refine ⟨h.blanked v rfl (hw v rfl) hp, ?_⟩
  simpa only [Option.some.injEq] using bracketed_of_primitive? hp

lemma dateAccount_of_dateText {e : Value} {k : String} (h : o.dateText f = .ok t)
    (ha : after = if t.modified then some (.string t.text) else Object.get? o f)
    (he : e.at? ["message", k] = some (.bool t.altered)) : DateAccount e k (Object.get? o f) after := by
  have hs : Settled (Object.get? o f) after := ha ▸ settled_of_dateText h
  refine ⟨⟨_, he, (altered_iff h).trans ?_⟩, hs.wrapped, hs.blanked_of_ne⟩
  simp only [DateShape.of_eq_wrapped]
  exact exists_comm

end Dates

section Ids

lemma get?_reread {o o' : Object} {d : Nat} (h : (Value.object o).reread? d = some (.object o'))
    {k s : String} (hk : Object.get? o k = some (.string s)) : Object.get? o' k = some (.string s) := by
  cases d with
  | zero => cases h
  | succ d =>
    obtain ⟨p, hp, he⟩ := Option.map_eq_some_iff.mp h
    cases he
    rw [get?_rereadMembers? hp, hk]
    rfl

lemma value_ne_of_dated {o o' : Document} (dated : Field.dates.any o.hasWrappedDate = true)
    (flat : o.flattenDates Field.dates = ⟨o', none⟩) (hk : (Value.object o).Keyed) {w : Value}
    (h : Id.value ⟨Object.compact o', .flattenedDates⟩ = .ok w) : w ≠ .object o := by
  rintro rfl
  have hp := (parse_compact (Id.flattenDates_keyed flat hk)).mp ((Id.value_eq_ok (.inr rfl)).mp h)
  obtain ⟨-, -, hc⟩ := flattenDates_spec flat
  obtain ⟨f, hf, d, hd⟩ := exists_wrapped dated
  obtain ⟨s, -, hs⟩ := (hc f hf).string_of_wrapped hd
  -- a string is read again as the string that it is
  rw [get?_reread hp hs] at hd
  cases hd

lemma isModified_iff {o flat : Document} {i : Id} {v : Value} (hv : Object.get? o Field.id = some v)
    (hr : Id.Reads v i) (hk : v.Keyed) (h : o.withId i = .ok flat) :
    i.form.isModified = true ↔ Object.get? flat Field.id ≠ Object.get? o Field.id := by
  cases hm : i.form.isModified with
  | false =>
    rw [Document.withId, hm] at h
    cases h
    exact iff_of_false Bool.false_ne_true fun hne => hne rfl
  | true =>
    obtain ⟨w, hw, rfl⟩ := eq_insert_of_withId h hm
    refine iff_of_true rfl ?_
    rw [Object.get?_insert_self, hv, ne_eq, Option.some.injEq]
    cases hr with
    | oid wrapped =>
      cases hw
      rintro rfl
      cases wrapped
    | dates noOid dated flattened => exact value_ne_of_dated dated flattened hk hw
    | object => cases hm
    | plain => cases hm

end Ids

section LastModified

lemma Chosen.not_string {modified created : Option Value} {s : String} {a : DateSource}
    (h : Chosen modified created s a) (ha : a ≠ .lastModified) (x : String) :
    modified ≠ some (.string x) := by
  rintro rfl
  cases h with
  | wrapped present wrapped =>
    cases present
    cases wrapped
  | plain => exact ha rfl
  | created missing | epoch missing =>
    cases (missing _ rfl).2

end LastModified

section Body

variable {line : String} {o : Document} {u : Unwrapped} {flat : Document} {p : Prepared}

lemma Prepares.document_of {P : Document → Prop} (h : Prepares line o u flat p)
    (hs : ∀ o k s, P o → P (Object.insert o k (.string s))) (hu : P u.document)
    (hi : ∀ w, p.id.value = .ok w → P (Object.insert u.document Field.id w)) : P p.document := by
  rw [h.document]
  exact withDates_of hs (withId_of h.withId hu fun w _ => hi w) p.dates

lemma Prepares.document_keyed (h : Prepares line o u flat p) : (Value.object p.document).Keyed :=
  h.document_of (P := fun o => (Value.object o).Keyed)
    (fun _ k s ho => Value.keyed_insert (v := .string s) ho trivial k) h.keyed
    fun _ hw => Value.keyed_insert h.keyed (Id.value_keyed hw) Field.id

lemma Prepares.document_readable (h : Prepares line o u flat p) {w : Value} (hw : p.id.value = .ok w)
    (hd : w.depth ≤ 125) : Object.All (Readable 126) p.document := by
  have hu := unwrap_readable h.parsed h.unwrapped
  obtain ⟨v, w', -, hw', hvalid, -⟩ := h.exists_value
  cases hw.symm.trans hw'
  exact h.document_of (fun _ k s ho => ho.insert ((hereditary_readable 126).string s) k) hu fun v hv => by
    cases hw.symm.trans hv
    exact hu.insert ⟨hvalid, Nat.le_succ_of_le hd⟩ Field.id

lemma exists_parseDocument_compact {b : Document}
    (hk : (Value.object b).Keyed) (hb : Object.All (Readable 126) b) :
    ∃ b', parseDocument (Object.compact b) = .ok b' ∧ Object.keys b' = Object.keys b ∧
      ∀ f v, Object.get? b f = some v → v.Holds Number.IsInteger (fun _ => True) →
        Object.get? b' f = some v := by
  obtain ⟨b', hb'⟩ := exists_rereadMembers? fun m hm => (Value.exists_reread?_iff (hb m hm).1).mpr (hb m hm).2
  have hr : (Value.object b).reread? maxDepth = some (.object b') := congrArg (Option.map Value.object) hb'
  refine ⟨b', (parseDocument_compact_iff hk).mpr hr, keys_rereadMembers? hb', fun f v hv hint => ?_⟩
  have hs : v.Stable := hint.imp (fun _ => reread?_of_isInteger) (fun _ => id)
  rw [get?_rereadMembers? hb', hv, Option.bind_some, Value.reread?_stable hs, if_pos (hb.get? hv).2]

end Body

section Account

structure Accounted (e : Value) (line before after : Document) : Prop where
  id : Envelope.Flags e "mongo_format_stripped_from_id"
    (Object.get? after Field.id ≠ Object.get? before Field.id)
  lastModified : Envelope.Flags e "last_modified_date_time_was_altered"
    (Object.get? after Field.lastModified ≠ Object.get? before Field.lastModified)
  created : DateAccount e "created_date_time_was_altered" (Object.get? before Field.created)
    (Object.get? after Field.created)
  removed : DateAccount e "removed_date_time_was_altered" (Object.get? before Field.removedDate)
    (Object.get? after Field.removedDate)
  archived : DateAccount e "archived_date_time_was_altered" (Object.get? before Field.archivedDate)
    (Object.get? after Field.archivedDate)
  removedRecord : Envelope.Flags e "historic_removed_record_altered_on_import"
    (∃ i, Object.get? line Field.removed = some (.object i))
  archivedRecord : ∃ o x, Deletion.removed.unwrap line = .ok (o, x) ∧
    Envelope.Flags e "historic_archived_record_altered_on_import"
      (∃ i, Object.get? o Field.archived = some (.object i))

variable {line : String} {o : Document} {u : Unwrapped} {flat : Document} {p : Prepared}

lemma Prepares.id_flag (h : Prepares line o u flat p) : p.id.form.isModified = true ↔
    Object.get? p.document Field.id ≠ Object.get? u.document Field.id := by
  obtain ⟨v, hv, hr⟩ := reads_of_readId h.id
  rw [h.document, get?_withDates_of_notMem _ _ (by decide)]
  exact isModified_iff hv hr (Object.holds_get? h.keyed.2 hv) h.withId

lemma Prepares.lastModified_flag (h : Prepares line o u flat p) :
    (p.dates.lastModified.source != .lastModified) = true ↔
      Object.get? p.document Field.lastModified ≠ Object.get? u.document Field.lastModified := by
  have hch := h.chosen
  rw [h.lastModified_string, bne_iff_ne]
  by_cases hs : p.dates.lastModified.source = .lastModified
  · rw [hs] at hch
    rw [hch.string_of_plain h.version, hs]
    simp
  · exact iff_of_true hs (hch.not_string hs _).symm

lemma unwrap_flag {d : Deletion} {o : Document} {u : Document × Bool} (h : d.unwrap o = .ok u) :
    u.2 = true ↔ ∃ i, Object.get? o d.wrapper = some (.object i) := by
  rcases d.unwrap_eq_ok h with ⟨hn, rfl⟩ | ⟨i, hi, rfl⟩
  · simp [hn]
  · exact iff_of_true rfl ⟨i, hi⟩

lemma Prepares.accounted (h : Prepares line o u flat p) (m : Mapper) (c : Dump.Collection)
    (body : Cipher.Sealed) (s : Stamp) (v : Value) :
    Accounted (Envelope.value s (m.content c p body) v) o u.document p.document := by
  have hd : ∀ {f t k}, (f, t) ∈ p.dates.read →
      (Envelope.value s (m.content c p body) v).at? ["message", k] = some (.bool t.altered) →
      DateAccount (Envelope.value s (m.content c p body) v) k (Object.get? u.document f)
        (Object.get? p.document f) :=
    fun ht => dateAccount_of_dateText (dateText_of_mem h.dates ht) (h.get?_date ht)
  obtain ⟨o₁, hrem, harch⟩ := unwrap_eq_ok_iff.mp h.unwrapped
  have hcreated := congrArg (fun x : Changes => some (Value.bool x.created)) h.changes
  have hremoved := congrArg (fun x : Changes => some (Value.bool x.removed)) h.changes
  have harchived := congrArg (fun x : Changes => some (Value.bool x.archived)) h.changes
  have hremovedRecord := congrArg (fun x : Changes => some (Value.bool x.removedRecord)) h.changes
  have harchivedRecord := congrArg (fun x : Changes => some (Value.bool x.archivedRecord)) h.changes
  refine ⟨⟨_, rfl, h.id_flag⟩, ⟨_, rfl, h.lastModified_flag⟩, ?_, ?_, ?_,
    ⟨_, hremovedRecord, unwrap_flag hrem⟩, o₁, _, hrem, _, harchivedRecord, unwrap_flag harch⟩
  · exact hd (.head _) hcreated
  · exact hd (.tail _ (.head _)) hremoved
  · exact hd (.tail _ (.tail _ (.head _))) harchived

end Account

/-- The flags say exactly where the body is not as the document in the line was. It can be read again,
and what is read is the body but for numbers that are not whole. -/
theorem alterations_accounted {m : Mapper} {c : Dump.Collection} {d : Draw} {line : String} {r : Mapped}
    (h : m.map c d line = .ok r) :
    ∃ (o : Document) (u : Unwrapped) (e : Value) (iv body : String) (b b' : Document),
      parseDocument line = .ok o ∧ o.unwrap = .ok u ∧ parse r.envelope = .ok e ∧
      e.at? ["message", "encryption", "initialisationVector"] = some (.string iv) ∧
      e.at? ["message", "dbObject"] = some (.string body) ∧
      Cipher.decrypt m.block m.dataKey.plaintext iv body = .ok (Bytes.ofText (Object.compact b)) ∧
      Accounted e o u.document b ∧
      parseDocument (Object.compact b) = .ok b' ∧ Object.keys b' = Object.keys b ∧
      ∀ f v, Object.get? b f = some v → v.Holds Number.IsInteger (fun _ => True) →
        Object.get? b' f = some v := by
  obtain ⟨p, body, v, w, k, hp, hm⟩ := Mapper.maps_of_map h
  obtain ⟨o, u, flat, hpr⟩ := prepares_of_prepare hp
  have hd := (Value.depth_of_reread? hm.reread).1
  obtain ⟨b', hb'⟩ := exists_parseDocument_compact hpr.document_keyed (hpr.document_readable hm.id hd)
  exact ⟨o, u, _, body.iv, body.body, p.document, b', hpr.parsed, hpr.unwrapped, hm.parse_envelope,
    Envelope.at?_iv _ _ _, Envelope.at?_body _ _ _, hm.decrypt, hpr.accounted m c body _ w, hb'⟩

def removedLine : String :=
  "\x7b\"_removed\":\x7b\"_id\":7,\"createdDateTime\":\x7b\"$date\":\"2019-07-04T07:27:35.104Z\"\x7d," ++
    "\"_removedDateTime\":[]\x7d\x7d"

def removedMembers : Document := [
  ("_id", .number (.int (.nearest 7))),
  ("createdDateTime", .object [("$date", .string "2019-07-04T07:27:35.104Z")]),
  ("_removedDateTime", .array [])]

lemma parseDocument_removedLine : parseDocument removedLine = .ok [("_removed", .object removedMembers)] := by
  have ht : removedLine = Object.compact [("_removed", .object removedMembers)] := by decide +kernel
  have hl : Document.Legible [("_removed", .object removedMembers)] :=
    ⟨⟨by decide, ⟨by decide, trivial, ⟨by decide, trivial, trivial⟩, trivial, trivial⟩, trivial⟩,
      ⟨trivial, ⟨trivial, rfl, ⟨trivial, trivial, trivial⟩, trivial, trivial⟩, trivial⟩, by decide⟩
  rw [ht, parseDocument_compact hl]

lemma map_removedLine : ∃ r, Mapper.sample.map .unset Mapper.sampleDraw removedLine = .ok r :=
  Mapper.map_isOk (k := List.replicate 16 0) (by decide +kernel) (by decide) (by decide +kernel)

theorem alterations_accounted_removed : ∃ r e b,
    Mapper.sample.map .unset Mapper.sampleDraw removedLine = .ok r ∧ parse r.envelope = .ok e ∧
      e.at? ["message", "historic_removed_record_altered_on_import"] = some (.bool true) ∧
      e.at? ["message", "created_date_time_was_altered"] = some (.bool true) ∧
      Object.get? b Field.created = some (.string "2019-07-04T07:27:35.104+0000") ∧
      e.at? ["message", "removed_date_time_was_altered"] = some (.bool false) ∧
      Accounted e [("_removed", .object removedMembers)]
        (Object.insert removedMembers Field.type (.string "MONGO_DELETE")) b := by
  obtain ⟨r, hr⟩ := map_removedLine
  obtain ⟨o, u, e, iv, body, b, b', ho, hu, he, -, -, -, ha, -⟩ := alterations_accounted hr
  cases parseDocument_removedLine.symm.trans ho
  cases hu
  obtain ⟨x, hx, hxi⟩ := ha.removedRecord
  obtain ⟨y, hy, hyi⟩ := ha.created.flag
  obtain ⟨z, hz, hzi⟩ := ha.removed.flag
  rw [hxi.mpr ⟨_, rfl⟩] at hx
  rw [hyi.mpr ⟨_, _, rfl, rfl⟩] at hy
  have hz' : z = false := by
    rw [← Bool.not_eq_true, hzi]
    rintro ⟨v, d, ⟨⟩, hd⟩
    cases hd
  obtain ⟨s, hs, hb⟩ := ha.created.canonical _ _ rfl rfl
  have hc : canonicalDate "2019-07-04T07:27:35.104Z" = .ok "2019-07-04T07:27:35.104+0000" := by decide +kernel
  cases hc.symm.trans hs
  exact ⟨r, e, b, hr, he, hx, hy, hb, hz' ▸ hz, ha⟩

end DumpImport.Record
