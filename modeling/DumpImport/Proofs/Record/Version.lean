import DumpImport.Proofs.Record.Body

namespace DumpImport.Record

open Json

inductive Chosen (modified created : Option Value) : String → DateSource → Prop where
  | wrapped {v d s} (present : modified = some v) (wrapped : v.wrapped? Field.date = some d)
      (canonical : canonicalDate d = .ok s) : Chosen modified created s .lastModifiedStripped
  | plain {v s} (present : modified = some v) (primitive : v.primitive? = some s) :
      Chosen modified created s .lastModified
  | created {t : DateText}
      (missing : ∀ v, modified = some v → v.wrapped? Field.date = none ∧ v.primitive? = none)
      (normalized : (DateShape.of created).text = .ok t) (filled : Text.trim t.text ≠ "") :
      Chosen modified created t.text .created
  | epoch {t : DateText}
      (missing : ∀ v, modified = some v → v.wrapped? Field.date = none ∧ v.primitive? = none)
      (normalized : (DateShape.of created).text = .ok t) (blank : Text.trim t.text = "") :
      Chosen modified created epochDate .epoch

lemma chosen_fallback {modified created : Option Value} {t : DateText}
    (hm : ∀ v, modified = some v → v.wrapped? Field.date = none ∧ v.primitive? = none)
    (ht : (DateShape.of created).text = .ok t) :
    Chosen modified created (LastModified.fallback t.text).text (LastModified.fallback t.text).source := by
  rw [LastModified.fallback]
  by_cases hb : Text.trim t.text = ""
  · rw [if_pos hb]
    exact .epoch hm ht hb
  · rw [if_neg hb]
    exact .created hm ht hb

lemma chosen_of_lastModified {o : Document} {t : DateText} {l : LastModified}
    (ht : o.dateText Field.created = .ok t) (h : o.lastModified t.text = .ok l) :
    Chosen (Object.get? o Field.lastModified) (Object.get? o Field.created) l.text l.source := by
  rw [Document.lastModified, LastModified.of] at h
  cases hs : DateShape.of (Object.get? o Field.lastModified) with
  | absent =>
    rw [hs] at h
    cases h
    rw [DateShape.of_eq_absent] at hs
    exact chosen_fallback (fun v hv => by cases hs.symm.trans hv) ht
  | wrapped d =>
    rw [hs] at h
    obtain ⟨s, hc, rfl⟩ := map_eq_ok.mp h
    obtain ⟨v, hv, hw⟩ := DateShape.of_eq_wrapped.mp hs
    exact .wrapped hv hw hc
  | plain d =>
    rw [hs] at h
    cases h
    obtain ⟨v, hv, hp⟩ := DateShape.of_eq_plain.mp hs
    exact .plain hv hp
  | malformed =>
    rw [hs] at h
    cases h
    obtain ⟨v, hv, hw, hp⟩ := DateShape.of_eq_malformed.mp hs
    refine chosen_fallback (fun w hw' => ?_) ht
    cases hv.symm.trans hw'
    exact ⟨hw, hp⟩

lemma Chosen.string_of_plain {modified created : Option Value} {s : String}
    (h : Chosen modified created s .lastModified) {t : Int} (ht : millisOf s = .ok t) :
    modified = some (.string s) := by
  cases h with
  | plain present primitive => rw [present, string_of_millisOf primitive ht]

lemma Chosen.epoch_text {modified created : Option Value} {s : String}
    (h : Chosen modified created s .epoch) : s = epochDate := by
  cases h with
  | epoch => rfl

lemma Prepares.chosen {line : String} {o : Document} {u : Unwrapped} {flat : Document} {p : Prepared}
    (h : Prepares line o u flat p) :
    Chosen (Object.get? u.document Field.lastModified) (Object.get? u.document Field.created)
      p.dates.lastModified.text p.dates.lastModified.source := by
  obtain ⟨hc, -, -, hl⟩ := readDates_eq_ok h.dates
  exact chosen_of_lastModified hc hl

lemma Prepares.lastModified_string {line : String} {o : Document} {u : Unwrapped}
    {flat : Document} {p : Prepared} (h : Prepares line o u flat p) :
    Object.get? p.document Field.lastModified = some (.string p.dates.lastModified.text) := by
  have hch := h.chosen
  rw [h.document, get?_withDates _ _ (.head _), (withId_spec h.withId h.id_mem_keys).2 _ (by decide),
    Dates.chosen]
  cases hs : p.dates.lastModified.source with
  | lastModified =>
    rw [hs] at hch
    exact hch.string_of_plain h.version
  | lastModifiedStripped => rfl
  | created => rfl
  | epoch => rfl

lemma millisOf_epochDate : millisOf epochDate = .ok epochMillis := by
  decide +kernel

lemma classify_epoch (w : Window) : w.classify epochMillis ≠ .tooEarly := by
  rw [Window.classify, classify, if_neg (by simp)]
  split <;> simp

/-- The body, the envelope, the version and the verdict of a mapped record agree on the time of the
last change, which is a date, and a record without any date is never too early. -/
theorem modification_time_agrees {m : Mapper} {c : Dump.Collection} {d : Draw} {line : String} {r : Mapped}
    (h : m.map c d line = .ok r) :
    ∃ (o : Document) (u : Unwrapped) (e : Value) (iv body : String) (b : Document) (s : String)
      (t : Time.Instant) (source : DateSource),
      parseDocument line = .ok o ∧ o.unwrap = .ok u ∧ parse r.envelope = .ok e ∧
      e.at? ["message", "encryption", "initialisationVector"] = some (.string iv) ∧
      e.at? ["message", "dbObject"] = some (.string body) ∧
      Cipher.decrypt m.block m.dataKey.plaintext iv body = .ok (Bytes.ofText (Object.compact b)) ∧
      Object.get? b Field.lastModified = some (.string s) ∧
      e.at? ["message", Field.lastModified] = some (.string s) ∧
      parseDate s = .ok t ∧ r.version = t.millis ∧ r.verdict = m.window.classify r.version ∧
      Chosen (Object.get? u.document Field.lastModified) (Object.get? u.document Field.created) s source ∧
      e.at? ["message", "timestamp_created_from"] = some (.string source.name) ∧
      (source = .epoch → ∀ w : Window, w.classify r.version ≠ .tooEarly) := by
  obtain ⟨p, body, v, w, k, hp, hm⟩ := Mapper.maps_of_map h
  obtain ⟨o, u, flat, hpr⟩ := prepares_of_prepare hp
  have hch := hpr.chosen
  obtain ⟨t, ht, hv⟩ := map_eq_ok.mp hpr.version
  refine ⟨o, u, _, body.iv, body.body, p.document, p.dates.lastModified.text, t, p.dates.lastModified.source,
    hpr.parsed, hpr.unwrapped, hm.parse_envelope, Envelope.at?_iv _ _ _, Envelope.at?_body _ _ _, hm.decrypt,
    hpr.lastModified_string, Envelope.at?_lastModified _ _ _, ht, hm.version.trans hv, ?_, hch,
    Envelope.at?_source _ _ _, ?_⟩
  · rw [hm.verdict, hm.version]
  · intro he win
    rw [he] at hch
    have hs := hch.epoch_text
    have hx := hpr.version
    rw [hs, millisOf_epochDate] at hx
    rw [hm.version, ← Except.ok.inj hx]
    exact classify_epoch win

theorem modification_time_agrees_sample : ∃ (r : Mapped) (e : Value),
    Mapper.sample.map .unset Mapper.sampleDraw Mapper.sampleLine = .ok r ∧ parse r.envelope = .ok e ∧
    e.at? ["message", Field.lastModified] = some (.string epochDate) ∧
    e.at? ["message", "timestamp_created_from"] = some (.string "epoch") ∧
    ∀ w : Window, w.classify r.version ≠ .tooEarly := by
  obtain ⟨r, hr⟩ := Mapper.map_sampleLine
  obtain ⟨o, u, e, -, -, -, s, -, source, ho, hu, he, -, -, -, -, hs, -, -, -, hc, hn, hw⟩ :=
    modification_time_agrees hr
  cases Mapper.parseDocument_sampleLine.symm.trans ho
  cases hu
  refine ⟨r, e, hr, he, ?_⟩
  cases hc with
  | wrapped present => cases present
  | plain present => cases present
  | created missing normalized filled =>
    cases normalized
    exact absurd (by decide) filled
  | epoch => exact ⟨hs, hn, hw rfl⟩

end DumpImport.Record
