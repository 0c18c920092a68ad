import DumpImport.Proofs.Cipher.RoundTrip
import DumpImport.Proofs.Record.Date
import DumpImport.Proofs.Record.Document
import DumpImport.Proofs.Record.Key
import Mathlib.Data.List.Permutation

namespace DumpImport.Record

open Json

namespace Id

inductive Reads : Value → Id → Prop where
  | oid {v s} (wrapped : v.wrapped? Field.oid = some s) : Reads v ⟨s, .flattenedOid⟩
  | dates {o o' : Document} (noOid : (Value.object o).wrapped? Field.oid = none)
      (dated : Field.dates.any o.hasWrappedDate = true) (flat : o.flattenDates Field.dates = ⟨o', none⟩) :
      Reads (.object o) ⟨Object.compact o', .flattenedDates⟩
  | object {o : Document} (noOid : (Value.object o).wrapped? Field.oid = none)
      (undated : Field.dates.any o.hasWrappedDate = false) : Reads (.object o) ⟨Object.compact o, .object⟩
  | plain {v s} (primitive : v.primitive? = some s) : Reads v ⟨s, .string⟩

lemma reads_of_ofObject {o : Document} {i : Id} (hw : (Value.object o).wrapped? Field.oid = none)
    (h : ofObject o = .ok i) : Reads (.object o) i := by
  rw [ofObject] at h
  cases hd : Field.dates.any o.hasWrappedDate with
  | false =>
    rw [hd] at h
    cases h
    exact .object hw hd
  | true =>
    rw [hd, if_pos rfl] at h
    rcases hf : o.flattenDates Field.dates with ⟨o', _ | e⟩ <;> rw [hf] at h
    · cases h
      exact .dates hw hd hf
    · cases h

lemma reads_of {x : Option Value} {i : Id} (h : Id.of x = .ok i) (hi : i.form ≠ .invalid) :
    ∃ v, x = some v ∧ Reads v i := by
  cases x with
  | none =>
    cases h
    exact absurd rfl hi
  | some v =>
    refine ⟨v, rfl, ?_⟩
    unfold of at h
    cases hw : v.wrapped? Field.oid with
    | some s =>
      simp only [hw] at h
      cases h
      exact .oid hw
    | none =>
      simp only [hw] at h
      cases v with
      | object o => exact reads_of_ofObject hw h
      | null => cases h; exact absurd rfl hi
      | array vs => cases h; exact absurd rfl hi
      | bool b => cases h; exact .plain rfl
      | number n => cases h; exact .plain rfl
      | string s => cases h; exact .plain rfl

lemma value_eq_ok {t : String} {f : IdForm} {w : Value} (hf : f = .object ∨ f = .flattenedDates) :
    Id.value ⟨t, f⟩ = .ok w ↔ parse t = .ok w := by
  have hi : f ≠ .invalid := by rcases hf with rfl | rfl <;> decide
  have hs : ¬ f.isString = true := by rcases hf with rfl | rfl <;> decide
  rw [value, if_neg hi, if_neg hs]
  cases parse t <;> simp

lemma value_keyed {i : Id} {w : Value} (h : i.value = .ok w) : w.Keyed := by
  rw [value] at h
  split_ifs at h
  · cases h
    trivial
  · split at h
    · rename_i hp
      cases h
      exact parse_keyed hp
    · cases h

lemma flattenDates_keyed {o o' : Document} {fs : List String} (h : o.flattenDates fs = ⟨o', none⟩)
    (ho : (Value.object o).Keyed) : (Value.object o').Keyed := by
  induction fs generalizing o with
  | nil =>
    cases h
    exact ho
  | cons f fs ih =>
    obtain ⟨u, hu, h⟩ := flattenDates_cons h
    refine ih h ?_
    rw [Document.flattenDate] at hu
    split at hu
    · obtain ⟨t, -, rfl⟩ := map_eq_ok.mp hu
      exact Value.keyed_insert (v := .string t) ho trivial f
    · cases hu
      exact ho

lemma Reads.wraps {v : Value} {i : Id} (h : Reads v i) (hv : v.Keyed) {w : Value} (hw : i.value = .ok w) :
    ∃ o, Key.Wraps w o := by
  cases h with
  | oid => cases hw; exact ⟨_, .string _⟩
  | plain => cases hw; exact ⟨_, .string _⟩
  | dates noOid dated flat =>
    have hp := (parse_compact (flattenDates_keyed flat hv)).mp ((value_eq_ok (.inr rfl)).mp hw)
    obtain ⟨o, rfl⟩ := Value.reread?_object hp
    exact ⟨o, .object o⟩
  | object =>
    have hp := (parse_compact hv).mp ((value_eq_ok (.inl rfl)).mp hw)
    obtain ⟨o, rfl⟩ := Value.reread?_object hp
    exact ⟨o, .object o⟩

end Id

lemma Key.Wraps.reread {v w : Value} {o : Object} (h : Wraps v o) {d : Nat} (hr : v.reread? d = some w) :
    ∃ o', Wraps w o' := by
  cases h with
  | object =>
    obtain ⟨o', rfl⟩ := Value.reread?_object hr
    exact ⟨o', .object o'⟩
  | string s =>
    cases hr
    exact ⟨_, .string s⟩

/-- How a line is made ready: its document out of any wrapper, the id and the dates read from that,
and both written back. -/
structure Prepares (line : String) (o : Document) (u : Unwrapped) (flat : Document)
    (p : Prepared) : Prop where
  parsed : parseDocument line = .ok o
  unwrapped : Document.unwrap o = .ok u
  id : Document.readId u.document = .ok p.id
  dates : Document.readDates u.document = .ok p.dates
  withId : Document.withId u.document p.id = .ok flat
  document : p.document = Document.withDates flat p.dates
  version : millisOf p.dates.lastModified.text = .ok p.version
  changes : p.changes =
    ⟨p.dates.created.altered, p.dates.removed.altered, p.dates.archived.altered, u.removed, u.archived⟩

lemma prepares_of_prepare {line : String} {p : Prepared} (h : prepare line = .ok p) :
    ∃ o u flat, Prepares line o u flat p := by
  obtain ⟨o, ho, h⟩ := bind_eq_ok.mp h
  obtain ⟨u, hu, h⟩ := bind_eq_ok.mp h
  obtain ⟨i, hi, h⟩ := bind_eq_ok.mp h
  obtain ⟨ds, hd, h⟩ := bind_eq_ok.mp h
  obtain ⟨f, hf, h⟩ := bind_eq_ok.mp h
  obtain ⟨t, ht, h⟩ := bind_eq_ok.mp h
  cases h
  exact ⟨o, u, f, ho, hu, hi, hd, hf, rfl, ht, rfl⟩

lemma Prepares.keyed {line : String} {o : Document} {u : Unwrapped} {flat : Document} {p : Prepared}
    (h : Prepares line o u flat p) : (Value.object u.document).Keyed :=
  unwrap_keyed h.unwrapped (parseDocument_keyed h.parsed)

lemma reads_of_readId {o : Document} {i : Id} (h : o.readId = .ok i) :
    ∃ v, Object.get? o Field.id = some v ∧ Id.Reads v i := by
  obtain ⟨j, hj, h⟩ := bind_eq_ok.mp h
  split_ifs at h with hi
  cases h
  exact Id.reads_of hj hi

lemma Prepares.id_mem_keys {line : String} {o : Document} {u : Unwrapped} {flat : Document} {p : Prepared}
    (h : Prepares line o u flat p) : Field.id ∈ Object.keys u.document := by
  obtain ⟨v, hv, -⟩ := reads_of_readId h.id
  exact Object.mem_keys_of_get? hv

lemma exists_wraps {line : String} {p : Prepared} (hp : prepare line = .ok p) {v w : Value}
    (hv : p.id.value = .ok v) {d : Nat} (hr : v.reread? d = some w) : ∃ o, Key.Wraps w o := by
  obtain ⟨o, u, flat, hpr⟩ := prepares_of_prepare hp
  obtain ⟨x, hx, hi⟩ := reads_of_readId hpr.id
  obtain ⟨a, ha⟩ := hi.wraps (Object.holds_get? hpr.keyed.2 hx) hv
  exact ha.reread hr

namespace Mapper

variable {m : Mapper} {c : Dump.Collection} {d : Draw} {line : String} {r : Mapped}

/-- What comes of a prepared line: the body sealed, the id in the envelope as `v` and in the key as
it is read from there. -/
structure Maps (m : Mapper) (c : Dump.Collection) (d : Draw) (p : Prepared) (body : Cipher.Sealed)
    (v w : Value) (o : Object) (r : Mapped) : Prop where
  encrypted : m.encrypt d p = .ok body
  id : p.id.value = .ok v
  reread : v.reread? 125 = some w
  wraps : Key.Wraps w o
  key : r.key = Key.ofId o
  envelope : r.envelope = (Envelope.value ⟨m.unitOfWork, m.trace, d.time⟩ (m.content c p body) v).compact
  version : r.version = p.version
  verdict : r.verdict = m.window.classify p.version

lemma maps_of_map (h : m.map c d line = .ok r) :
    ∃ p body v w o, prepare line = .ok p ∧ m.Maps c d p body v w o r := by
  obtain ⟨p, hp, h⟩ := bind_eq_ok.mp h
  obtain ⟨body, hb, h⟩ := bind_eq_ok.mp h
  obtain ⟨e, he, h⟩ := bind_eq_ok.mp h
  obtain ⟨k, hk, h⟩ := bind_eq_ok.mp h
  obtain ⟨v, hv, he⟩ := bind_eq_ok.mp he
  cases h
  cases he
  have hvk := Id.value_keyed hv
  obtain ⟨w, hw⟩ := Key.reread?_of_ofText hvk hk
  obtain ⟨o, ho⟩ := exists_wraps hp hv hw
  cases hk.symm.trans (Key.ofText_value hvk hw ho _ _)
  exact ⟨p, body, v, w, o, hp, hb, hv, hw, ho, rfl, rfl, rfl, rfl⟩

lemma Maps.parse_envelope {p : Prepared} {body : Cipher.Sealed} {v w : Value} {o : Object}
    (h : m.Maps c d p body v w o r) :
    parse r.envelope = .ok (Envelope.value ⟨m.unitOfWork, m.trace, d.time⟩ (m.content c p body) w) := by
  rw [h.envelope, Envelope.parse_value _ _ (Id.value_keyed h.id)]
  exact ⟨w, h.reread, rfl⟩

lemma Maps.decrypt {p : Prepared} {body : Cipher.Sealed} {v w : Value} {o : Object}
    (h : m.Maps c d p body v w o r) :
    Cipher.decrypt m.block m.dataKey.plaintext body.iv body.body =
      .ok (Bytes.ofText (Object.compact p.document)) := by
  have he := h.encrypted
  rw [encrypt] at he
  split at he
  · rename_i hc
    cases he
    exact Cipher.decrypt_encrypt hc
  · cases he

lemma map_of_reread {p : Prepared} {body : Cipher.Sealed} {v w : Value} {o : Object}
    (hp : prepare line = .ok p) (hb : m.encrypt d p = .ok body) (hv : p.id.value = .ok v)
    (hr : v.reread? 125 = some w) (ho : Key.Wraps w o) :
    m.map c d line =
      .ok ⟨Key.ofId o, (Envelope.value ⟨m.unitOfWork, m.trace, d.time⟩ (m.content c p body) v).compact,
        p.version, m.window.classify p.version⟩ := by
  have he : Envelope.build ⟨m.unitOfWork, m.trace, d.time⟩ (m.content c p body) =
      .ok (Envelope.value ⟨m.unitOfWork, m.trace, d.time⟩ (m.content c p body) v).compact :=
    bind_eq_ok.mpr ⟨v, hv, rfl⟩
  have hk := Key.ofText_value (Id.value_keyed hv) hr ho ⟨m.unitOfWork, m.trace, d.time⟩ (m.content c p body)
  exact bind_eq_ok.mpr ⟨p, hp, bind_eq_ok.mpr ⟨body, hb, bind_eq_ok.mpr ⟨_, he, bind_eq_ok.mpr ⟨_, hk, rfl⟩⟩⟩⟩

lemma encrypt_of_key {k : Bytes} (hk : Cipher.decode .key m.dataKey.plaintext = .ok k)
    (hl : Cipher.isKeyLength k.length = true) (p : Prepared) : ∃ body, m.encrypt d p = .ok body := by
  have hc : Cipher.encrypt m.block m.dataKey.plaintext d.iv
      (Bytes.ofText (Object.compact p.document)) = .ok _ :=
    Cipher.encrypt_eq_ok.mpr ⟨k, hk, hl, rfl⟩
  exact ⟨_, by rw [encrypt, hc]⟩

theorem map_isOk {k : Bytes} (hk : Cipher.decode .key m.dataKey.plaintext = .ok k)
    (hl : Cipher.isKeyLength k.length = true)
    (h : ((prepare line).toOption.bind fun p => p.id.value.toOption.bind (·.reread? 125)).isSome = true) :
    ∃ r, m.map c d line = .ok r := by
  obtain ⟨w, hw⟩ := Option.isSome_iff_exists.mp h
  obtain ⟨p, hp, hw⟩ := Option.bind_eq_some_iff.mp hw
  obtain ⟨v, hv, hr⟩ := Option.bind_eq_some_iff.mp hw
  rw [toOption_eq_some] at hp hv
  obtain ⟨body, hb⟩ := encrypt_of_key (d := d) hk hl p
  obtain ⟨o, ho⟩ := exists_wraps hp hv hr
  exact ⟨_, map_of_reread hp hb hv hr ho⟩

lemma Maps.again {p p' : Prepared} {body : Cipher.Sealed} {v w : Value} {o : Object}
    (h : m.Maps c d p body v w o r) {line' : String} (hp : prepare line' = .ok p')
    (hi : p'.id.value = p.id.value) (d' : Draw) :
    ∃ r' body', m.map c d' line' = .ok r' ∧ m.Maps c d' p' body' v w o r' := by
  have he := h.encrypted
  rw [encrypt] at he
  split at he
  · rename_i hc
    obtain ⟨k, hk, hl, -⟩ := Cipher.encrypt_eq_ok.mp hc
    obtain ⟨body', hb⟩ := encrypt_of_key (d := d') hk hl p'
    have hv : p'.id.value = .ok v := hi.trans h.id
    exact ⟨_, body', map_of_reread hp hb hv h.reread h.wraps, hb, hv, h.reread, h.wraps, rfl, rfl, rfl, rfl⟩
  · cases he

lemma map_of_draw (h : m.map c d line = .ok r) (d' : Draw) :
    ∃ r', m.map c d' line = .ok r' ∧ r'.verdict = r.verdict := by
  obtain ⟨p, body, v, w, o, hp, hm⟩ := maps_of_map h
  obtain ⟨r', body', hr, hm'⟩ := hm.again hp rfl d'
  exact ⟨r', hr, hm'.verdict.trans hm.verdict.symm⟩

def sample : Mapper :=
  ⟨Cipher.Aes.encrypt, .everything, "unit of work", "trace",
    ⟨"key", "AAAAAAAAAAAAAAAAAAAAAA==", "sealed key"⟩⟩

def sampleDraw : Draw := ⟨.ofNat 1, "2020-01-01T00:00:00.000Z"⟩

def sampleLine : String :=
  "\x7b\"_id\":\x7b\"n\":1,\"createdDateTime\":\x7b\"$date\":\"2019-07-04T07:27:35.104Z\"\x7d\x7d,\"x\":[]\x7d"

def sampleDocument : Document := [
  ("_id", .object [
    ("n", .number (.int ⟨1, by decide, by decide⟩)),
    ("createdDateTime", .object [("$date", .string "2019-07-04T07:27:35.104Z")])]),
  ("x", .array [])]

lemma parseDocument_sampleLine : parseDocument sampleLine = .ok sampleDocument := by
  have ht : sampleLine = Object.compact sampleDocument := by decide +kernel
  have hl : sampleDocument.Legible :=
    ⟨⟨by decide, ⟨by decide, trivial, ⟨by decide, trivial, trivial⟩, trivial⟩, trivial, trivial⟩,
      ⟨trivial, ⟨trivial, rfl, ⟨trivial, trivial, trivial⟩, trivial⟩, trivial, trivial⟩, by decide⟩
  rw [ht, parseDocument_compact hl]

lemma map_sampleLine : ∃ r, sample.map .unset sampleDraw sampleLine = .ok r :=
  map_isOk (k := List.replicate 16 0) (by decide +kernel) (by decide) (by decide +kernel)

lemma verdict_sampleLine {r : Mapped} (h : sample.map .unset sampleDraw sampleLine = .ok r) :
    r.verdict = .keep := by
  obtain ⟨p, body, v, w, o, hp, hm⟩ := maps_of_map h
  have hs : (prepare sampleLine).toOption.map (·.version) = some epochMillis := by decide +kernel
  rw [hp] at hs
  have hv : p.version = epochMillis := Option.some.inj hs
  rw [hm.verdict, hv]
  decide

end Mapper

end DumpImport.Record
