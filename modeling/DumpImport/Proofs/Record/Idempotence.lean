import DumpImport.Proofs.Record.Version

/-! The body of a record, mapped as a line, gives the same record once more: what was rewritten is in
a form that is left alone. -/

namespace DumpImport

/-- Written without point or exponent in 64 bits; `-0` is read as a double. -/
def Json.Number.IsInteger : Json.Number → Prop
  | .int _ => True
  | .double x => x = ⟨true, .zero⟩

namespace Record

open Json

lemma reread?_of_isInteger {n : Number} (h : n.IsInteger) : n.reread? = some n := by
  cases n with
  | int i => rfl
  | double x =>
    obtain rfl : x = ⟨true, .zero⟩ := h
    decide +kernel

section Kept

variable {o flat : Document}

lemma hereditary_fits (d : Nat) : Hereditary (Value.Fits d) := by
  refine ⟨Value.Fits.string d, fun {o} h => ?_⟩
  cases d with
  | zero => exact absurd h.depth_le (Nat.not_succ_le_zero _)
  | succ d => exact fun m hm => (Value.Fits.object_iff.mp h m hm).mono (Nat.le_succ d)

lemma Id.Reads.fits {v w : Value} {i : Id} (h : Reads v i) (hk : v.Keyed) (hf : v.Fits 126)
    (hm : i.form.isModified = true) (hw : i.value = .ok w) : w.Fits 126 := by
  cases h with
  | oid =>
    cases hw
    exact .string 126 _
  | dates noOid dated flat =>
    obtain rfl := value_of_flattenedDates flat hk hf.stable hw
    exact Value.Fits.object_iff.mpr
      (flattenDates_all (Value.Fits.string 125) flat (Value.Fits.object_iff.mp hf))
  | object => cases hm
  | plain => cases hm

lemma Prepares.legible {line : String} {o : Document} {u : Unwrapped} {flat : Document} {p : Prepared}
    (h : Prepares line o u flat p) (hs : (Value.object o).Stable) : p.document.Legible := by
  have ho : (Value.object o).Fits maxDepth := ⟨hs, (isRead_of_parseDocument h.parsed).depth_le⟩
  have hu : Object.All (Value.Fits 126) u.document :=
    unwrap_all (hereditary_fits 126) h.unwrapped (Value.Fits.object_iff.mp ho)
  have hl : Document.Legible u.document := ⟨h.keyed, Value.Fits.object_iff.mpr hu⟩
  obtain ⟨v, hv, hr⟩ := reads_of_readId h.id
  have hflat : Document.Legible flat := by
    refine withId_of h.withId hl fun w hm hw => hl.insert (Id.value_keyed hw) ?_ Field.id
    exact hr.fits (Object.holds_get? h.keyed.2 hv) (hu.get? hv) hm hw
  rw [h.document]
  exact withDates_of (fun o k s ho => ho.insert (v := .string s) trivial (.string 126 s) k) hflat p.dates

end Kept

section Again

lemma dateText_again {o o' : Document} {f : String} {t : DateText} (h : o.dateText f = .ok t)
    (ho : Object.get? o' f = if t.modified then some (.string t.text) else Object.get? o f) :
    o'.dateText f = .ok ⟨t.text, false⟩ := by
  rw [Document.dateText] at h ⊢
  rw [ho]
  cases hs : DateShape.of (Object.get? o f) with
  | absent =>
    rw [hs] at h
    cases h
    rw [if_neg Bool.false_ne_true, hs]
    rfl
  | plain d =>
    rw [hs] at h
    cases h
    rw [if_neg Bool.false_ne_true, hs]
    rfl
  | wrapped d =>
    rw [hs] at h
    obtain ⟨c, -, rfl⟩ := map_eq_ok.mp h
    rfl
  | malformed =>
    rw [hs] at h
    cases h
    rfl

def Id.settled (i : Id) : Id :=
  ⟨i.text, match i.form with
    | .flattenedOid => .string
    | .flattenedDates => .object
    | f => f⟩

lemma Id.settled_value (i : Id) : i.settled.value = i.value := by
  obtain ⟨t, f⟩ := i
  cases f <;> rfl

lemma Id.settled_form (i : Id) : i.settled.form.isModified = false := by
  obtain ⟨t, f⟩ := i
  cases f <;> rfl

lemma Id.of_undated {o : Document} (noOid : (Value.object o).wrapped? Field.oid = none)
    (undated : Field.dates.any o.hasWrappedDate = false) :
    Id.of (some (.object o)) = .ok ⟨Object.compact o, .object⟩ := by
  rw [Id.of, noOid]
  simp only [ofObject, undated, Bool.false_eq_true, if_false]

lemma Id.of_flattened {o o' : Document} (dated : Field.dates.any o.hasWrappedDate = true)
    (flat : o.flattenDates Field.dates = ⟨o', none⟩) :
    Id.of (some (.object o')) = .ok ⟨Object.compact o', .object⟩ := by
  obtain ⟨hkeys, -, hc⟩ := flattenDates_spec flat
  obtain ⟨f, hf, hd⟩ := List.any_eq_true.mp dated
  obtain ⟨u, -, hu, -⟩ := hasWrappedDate_iff.mp hd
  have hmem : f ∈ Object.keys o' := hkeys ▸ Object.mem_keys_of_get? hu
  have noOid : (Value.object o').wrapped? Field.oid = none := by
    -- a lone `$oid` leaves no room for the date that was unwrapped
    unfold Value.wrapped?
    split
    · rename_i l v heq
      cases heq
      obtain rfl := List.mem_singleton.mp hmem
      rw [if_neg]
      rintro rfl
      exact absurd hf (by decide)
    · rfl
  have undated : Field.dates.any o'.hasWrappedDate = false := by
    rw [List.any_eq_false]
    intro k hk hd'
    obtain ⟨v, d, hv, hw⟩ := hasWrappedDate_iff.mp hd'
    exact (hc k hk).not_wrapped d (DateShape.of_eq_wrapped.mpr ⟨v, hv, hw⟩)
  exact of_undated noOid undated

lemma Id.of_plain {v : Value} {s : String} (h : v.primitive? = some s) :
    Id.of (some v) = .ok ⟨s, .string⟩ := by
  cases v with
  | bool | number | string =>
    cases h
    rfl
  | null => cases h
  | array => cases h
  | object => cases h

lemma Id.Reads.again {o flat : Document} {v : Value} {i : Id} (h : Reads v i)
    (hv : Object.get? o Field.id = some v) (hk : v.Keyed) (hs : v.Stable) (hf : o.withId i = .ok flat) :
    Id.of (Object.get? flat Field.id) = .ok i.settled := by
  cases h with
  | oid =>
    obtain ⟨w, he, rfl⟩ := eq_insert_of_withId hf rfl
    cases he
    rw [Object.get?_insert_self]
    rfl
  | dates noOid dated flattened =>
    obtain ⟨w, he, rfl⟩ := eq_insert_of_withId hf rfl
    obtain rfl := value_of_flattenedDates flattened hk hs he
    rw [Object.get?_insert_self]
    exact of_flattened dated flattened
  | object noOid undated =>
    cases hf
    rw [hv]
    exact of_undated noOid undated
  | plain primitive =>
    cases hf
    rw [hv]
    exact of_plain primitive

lemma Id.Reads.settled_valid {v : Value} {i : Id} (h : Reads v i) : i.settled.form ≠ .invalid := by
  cases h with
  | oid | dates | object | plain => exact fun hx => nomatch hx

def Dates.settled (d : Dates) : Dates :=
  ⟨⟨d.created.text, false⟩, ⟨d.removed.text, false⟩, ⟨d.archived.text, false⟩,
    ⟨d.lastModified.text, .lastModified⟩⟩

variable {line : String} {o : Document} {u : Unwrapped} {flat : Document} {p : Prepared}

lemma Prepares.readId_again (h : Prepares line o u flat p) (hs : Object.All Value.Stable u.document) :
    Document.readId p.document = .ok p.id.settled := by
  obtain ⟨v, hv, hr⟩ := reads_of_readId h.id
  have hk : v.Keyed := Object.holds_get? h.keyed.2 hv
  have hof := hr.again hv hk (hs.get? hv) h.withId
  rw [← get?_withDates_of_notMem flat p.dates (by decide), ← h.document] at hof
  exact bind_eq_ok.mpr ⟨_, hof, if_neg hr.settled_valid⟩

lemma Prepares.readDates_again (h : Prepares line o u flat p) :
    Document.readDates p.document = .ok p.dates.settled := by
  have hd : ∀ {f t}, (f, t) ∈ p.dates.read → Document.dateText f p.document = .ok ⟨t.text, false⟩ :=
    fun ht => dateText_again (dateText_of_mem h.dates ht) (h.get?_date ht)
  have hl : Document.lastModified p.document p.dates.created.text =
      .ok ⟨p.dates.lastModified.text, .lastModified⟩ := by
    rw [Document.lastModified, h.lastModified_string]
    rfl
  exact bind_eq_ok.mpr ⟨_, hd (.head _), bind_eq_ok.mpr ⟨_, hd (.tail _ (.head _)),
    bind_eq_ok.mpr ⟨_, hd (.tail _ (.tail _ (.head _))), bind_eq_ok.mpr ⟨_, hl, rfl⟩⟩⟩⟩

lemma unwrap_of_absent (hr : Object.get? o Field.removed = none) (ha : Object.get? o Field.archived = none) :
    Document.unwrap o = .ok ⟨o, false, false⟩ := by
  exact unwrap_eq_ok_iff.mpr ⟨o, Deletion.removed.unwrap_absent hr, Deletion.archived.unwrap_absent ha⟩

def Prepared.settled (p : Prepared) : Prepared :=
  ⟨p.document, p.id.settled, p.dates.settled, ⟨false, false, false, false, false⟩, p.version⟩

lemma Prepares.again (h : Prepares line o u flat p) (hs : (Value.object o).Stable)
    (hr : Object.get? p.document Field.removed = none) (ha : Object.get? p.document Field.archived = none) :
    prepare (Object.compact p.document) = .ok p.settled := by
  have hall : Object.All Value.Stable u.document :=
    unwrap_all ⟨fun _ => trivial, fun hv => holdsMembers_iff.mp hv.2⟩ h.unwrapped (holdsMembers_iff.mp hs.2)
  have hp := parseDocument_compact (h.legible hs)
  have hw : Document.withId p.document p.id.settled = .ok p.document := by
    rw [Document.withId, p.id.settled_form]
    rfl
  have hv : millisOf p.dates.settled.lastModified.text = .ok p.version := h.version
  exact bind_eq_ok.mpr
    ⟨_, hp, bind_eq_ok.mpr ⟨_, unwrap_of_absent hr ha, bind_eq_ok.mpr ⟨_, h.readId_again hall,
    bind_eq_ok.mpr ⟨_, h.readDates_again, bind_eq_ok.mpr ⟨_, hw, bind_eq_ok.mpr ⟨_, hv, rfl⟩⟩⟩⟩⟩⟩

end Again

def Envelope.alterations : List String := [
  "mongo_format_stripped_from_id",
  "last_modified_date_time_was_altered",
  "created_date_time_was_altered",
  "removed_date_time_was_altered",
  "archived_date_time_was_altered",
  "historic_removed_record_altered_on_import",
  "historic_archived_record_altered_on_import"]

lemma Prepared.settled_unaltered (p : Prepared) (m : Mapper) (c : Dump.Collection)
    (body : Cipher.Sealed) (s : Stamp) (v : Value) : ∀ k ∈ Envelope.alterations,
      (Envelope.value s (m.content c p.settled body) v).at? ["message", k] = some (.bool false) := by
  have hi : (m.content c p.settled body).id.form.isModified = false := p.id.settled_form
  intro k hk
  simp only [Envelope.alterations, List.mem_cons, List.not_mem_nil, or_false] at hk
  rcases hk with rfl | rfl | rfl | rfl | rfl | rfl | rfl
  · exact congrArg (fun b => some (Value.bool b)) hi
  all_goals rfl

/-- The body of a record can be mapped as a line of the same collection, if it is no wrapper of a
deleted record, and that gives the same body, key, version and verdict with nothing altered. -/
theorem map_body_again {m : Mapper} {c : Dump.Collection} {d : Draw} {line : String} {r : Mapped}
    (h : m.map c d line = .ok r) :
    ∃ (o : Document) (p : Prepared), parseDocument line = .ok o ∧ prepare line = .ok p ∧
      ((Value.object o).Holds Number.IsInteger (fun _ => True) →
        ∃ (e : Value) (iv body : String), parse r.envelope = .ok e ∧
        e.at? ["message", "encryption", "initialisationVector"] = some (.string iv) ∧
        e.at? ["message", "dbObject"] = some (.string body) ∧
        Cipher.decrypt m.block m.dataKey.plaintext iv body =
          .ok (Bytes.ofText (Object.compact p.document)) ∧
        parseDocument (Object.compact p.document) = .ok p.document ∧
        (Object.get? p.document Field.removed = none → Object.get? p.document Field.archived = none →
          ∀ d' : Draw, ∃ (r' : Mapped) (e' : Value) (iv' body' : String),
            m.map c d' (Object.compact p.document) = .ok r' ∧ parse r'.envelope = .ok e' ∧
            e'.at? ["message", "encryption", "initialisationVector"] = some (.string iv') ∧
            e'.at? ["message", "dbObject"] = some (.string body') ∧
            Cipher.decrypt m.block m.dataKey.plaintext iv' body' =
              .ok (Bytes.ofText (Object.compact p.document)) ∧
            r'.key = r.key ∧ r'.version = r.version ∧ r'.verdict = r.verdict ∧
            (∀ k ∈ Envelope.alterations, e'.at? ["message", k] = some (.bool false)) ∧
            e'.at? ["message", "timestamp_created_from"] = some (.string Field.lastModified))) := by
  obtain ⟨p, body, v, w, k, hp, hm⟩ := Mapper.maps_of_map h
  obtain ⟨o, u, flat, hpr⟩ := prepares_of_prepare hp
  refine ⟨o, p, hpr.parsed, hp, fun hint => ?_⟩
  have hs : (Value.object o).Stable := hint.imp (fun _ => reread?_of_isInteger) (fun _ => id)
  refine ⟨_, body.iv, body.body, hm.parse_envelope, Envelope.at?_iv _ _ _,
    Envelope.at?_body _ _ _, hm.decrypt, parseDocument_compact (hpr.legible hs), fun hr ha d' => ?_⟩
  obtain ⟨r', body', hr', hm'⟩ := hm.again (hpr.again hs hr ha) p.id.settled_value d'
  exact ⟨r', _, body'.iv, body'.body, hr', hm'.parse_envelope, Envelope.at?_iv _ _ _, Envelope.at?_body _ _ _,
    hm'.decrypt, hm'.key.trans hm.key.symm, hm'.version.trans hm.version.symm,
    hm'.verdict.trans hm.verdict.symm, p.settled_unaltered m c body' _ w, rfl⟩

theorem map_body_again_sample : ∃ (r : Mapped) (p : Prepared),
    Mapper.sample.map .unset Mapper.sampleDraw Mapper.sampleLine = .ok r ∧
    prepare Mapper.sampleLine = .ok p ∧
    ∃ r', Mapper.sample.map .unset Mapper.sampleDraw (Object.compact p.document) = .ok r' ∧
      r'.key = r.key ∧ r'.version = r.version ∧ r'.verdict = r.verdict := by
  obtain ⟨r, hr⟩ := Mapper.map_sampleLine
  obtain ⟨o, p, ho, hp, hb⟩ := map_body_again hr
  cases Mapper.parseDocument_sampleLine.symm.trans ho
  have hwhole : (Value.object Mapper.sampleDocument).Holds Number.IsInteger (fun _ => True) :=
    ⟨trivial, ⟨trivial, trivial, ⟨trivial, trivial, trivial⟩, trivial⟩, trivial, trivial⟩
  obtain ⟨-, -, -, -, -, -, -, -, hagain⟩ := hb hwhole
  have hbare : (prepare Mapper.sampleLine).toOption.map (fun p => (Object.has p.document Field.removed,
      Object.has p.document Field.archived)) = some (false, false) := by decide +kernel
  rw [hp] at hbare
  obtain ⟨hrem, harch⟩ := Prod.ext_iff.mp (Option.some.inj hbare)
  obtain ⟨r', -, -, -, hr', -, -, -, -, hkey, hversion, hverdict, -⟩ :=
    hagain (Option.isSome_eq_false_iff.mp hrem |> Option.isNone_iff_eq_none.mp)
      (Option.isSome_eq_false_iff.mp harch |> Option.isNone_iff_eq_none.mp) Mapper.sampleDraw
  exact ⟨r, p, hr, hp, r', hr', hkey, hversion, hverdict⟩

end Record

end DumpImport
