import DumpImport.Proofs.Record.CanonicalDate
import DumpImport.Proofs.Record.Complaints
import DumpImport.Proofs.Record.Idempotence

/-! The form that ids are given: which have none, what becomes of the others, and that it is a form
of the moments in an id, however their dates are spelled. -/

namespace DumpImport.Record

open Json

section Refused

variable {x : Option Value}

lemma Id.of_invalid_iff :
    (∃ i, Id.of x = .ok i ∧ i.form = .invalid) ↔ x = none ∨ x = some .null ∨ ∃ vs, x = some (.array vs) := by
  constructor
  · rintro ⟨i, h, hi⟩
    cases x with
    | none => exact .inl rfl
    | some v =>
      cases v with
      | null => exact .inr (.inl rfl)
      | array vs => exact .inr (.inr ⟨vs, rfl⟩)
      | object o =>
        unfold of at h
        cases hw : (Value.object o).wrapped? Field.oid with
        | some s =>
          simp only [hw] at h
          cases h
          cases hi
        | none =>
          simp only [hw] at h
          cases reads_of_ofObject hw h <;> cases hi
      | bool | number | string =>
        cases h
        cases hi
  · rintro (rfl | rfl | ⟨vs, rfl⟩) <;> exact ⟨_, rfl, rfl⟩

/-- An object with an unreadable date that would have to be unwrapped. -/
inductive Id.Undatable : Option Value → Prop where
  | intro {o : Document} {f : String} {v : Value} {d : String} {e : Error}
      (noOid : (Value.object o).wrapped? Field.oid = none) (known : f ∈ Field.dates)
      (present : Object.get? o f = some v) (wrapped : v.wrapped? Field.date = some d)
      (unreadable : parseDate d = .error e) : Undatable (some (.object o))

lemma isUnread_iff {d : String} : isUnread d = true ↔ ∃ e, parseDate d = .error e := by
  rw [isUnread, Option.isNone_iff_eq_none, parseDate]
  cases Time.read d <;> simp

lemma mem_wrappedDates {o : Document} {fs : List String} {d : String} :
    d ∈ o.wrappedDates fs ↔ ∃ f ∈ fs, ∃ v, Object.get? o f = some v ∧ v.wrapped? Field.date = some d := by
  simp only [Document.wrappedDates, List.mem_filterMap, Option.bind_eq_some_iff]

lemma Id.of_error_iff : (∃ e, Id.of x = .error e) ↔ Undatable x := by
  have hex : (∃ e, Id.of x = .error e) ↔ ∃ d ∈ Id.wrappedDates x, isUnread d = true := by
    rw [← List.find?_isSome, Option.isSome_iff_exists]
    simp only [Id.of_complains x _]
    exact ⟨fun ⟨_, d, hd, _⟩ => ⟨d, hd⟩, fun ⟨d, hd⟩ => ⟨_, d, hd, rfl⟩⟩
  rw [hex]
  constructor
  · rintro ⟨d, hd, hu⟩
    unfold Id.wrappedDates at hd
    split at hd
    · split_ifs at hd with hw
      · obtain ⟨f, hf, v, hv, hd⟩ := mem_wrappedDates.mp hd
        obtain ⟨e, he⟩ := isUnread_iff.mp hu
        exact .intro hw hf hv hd he
      · cases hd
    · cases hd
  · rintro ⟨hw, hf, hv, hd, he⟩
    refine ⟨_, ?_, isUnread_iff.mpr ⟨_, he⟩⟩
    rw [Id.wrappedDates, if_pos hw]
    exact mem_wrappedDates.mpr ⟨_, hf, _, hv, hd⟩

end Refused

section Normal

inductive Id.Normal : Value → Value → Prop where
  | plain {v s} (primitive : v.primitive? = some s) : Normal v (.string s)
  | oid {v s} (wrapped : v.wrapped? Field.oid = some s) : Normal v (.string s)
  | object {o o' : Document} (noOid : (Value.object o).wrapped? Field.oid = none)
      (keys : Object.keys o' = Object.keys o)
      (others : ∀ k, k ∉ Field.dates → Object.get? o' k = Object.get? o k)
      (dates : ∀ k ∈ Field.dates, Canonised (Object.get? o k) (Object.get? o' k)) :
      Normal (.object o) (.object o')

lemma exists_wrapped {o : Document} (h : Field.dates.any o.hasWrappedDate = true) :
    ∃ f ∈ Field.dates, ∃ d, DateShape.of (Object.get? o f) = .wrapped d := by
  obtain ⟨f, hf, hd⟩ := List.any_eq_true.mp h
  obtain ⟨v, d, hv, hw⟩ := hasWrappedDate_iff.mp hd
  exact ⟨f, hf, d, DateShape.of_eq_wrapped.mpr ⟨v, hv, hw⟩⟩

variable {v : Value} {i : Id}

lemma Id.value_compact {o : Document} (h : o.Legible) {f : IdForm} (hf : f = .object ∨ f = .flattenedDates) :
    Id.value ⟨Object.compact o, f⟩ = .ok (.object o) :=
  (value_eq_ok hf).mpr ((parse_compact h.1).mpr h.2.reread?)

lemma Document.Legible.flattenDates {o o' : Document} {fs : List String} (h : o.Legible)
    (hf : o.flattenDates fs = ⟨o', none⟩) : Document.Legible o' :=
  ⟨Id.flattenDates_keyed hf h.1,
    Value.Fits.object_iff.mpr (flattenDates_all (Value.Fits.string 126) hf (Value.Fits.object_iff.mp h.2))⟩

lemma Id.Reads.normal (h : Reads v i) (hv : ∀ o, v = .object o → Document.Legible o) :
    ∃ w, i.value = .ok w ∧ Normal v w ∧ (i.form.isModified = true ↔ (∃ o, v = .object o) ∧ w ≠ v) ∧
      Id.of (some w) = .ok i.settled := by
  cases h with
  | @oid v s wrapped =>
    refine ⟨.string s, rfl, .oid wrapped, iff_of_true rfl ⟨?_, ?_⟩, rfl⟩
    · cases v with
      | object o => exact ⟨o, rfl⟩
      | _ => cases wrapped
    · rintro rfl
      cases wrapped
  | @dates o o' noOid dated flat =>
    obtain ⟨hkeys, hne, hc⟩ := flattenDates_spec flat
    refine ⟨.object o', value_compact ((hv o rfl).flattenDates flat) (.inr rfl), .object noOid hkeys hne hc,
      iff_of_true rfl ⟨⟨o, rfl⟩, ?_⟩, of_flattened dated flat⟩
    rintro ⟨⟩
    obtain ⟨f, hf, d, hd⟩ := exists_wrapped dated
    obtain ⟨s, -, hs⟩ := (hc f hf).string_of_wrapped hd
    rw [hs] at hd
    cases hd
  | @object o noOid undated =>
    have hself : ∀ k ∈ Field.dates, Canonised (Object.get? o k) (Object.get? o k) := by
      intro k hk
      refine canonised_self fun d hd => List.any_eq_false.mp undated k hk ?_
      rw [Document.hasWrappedDate, hd]
    exact ⟨.object o, value_compact (hv o rfl) (.inl rfl), .object noOid rfl (fun _ _ => rfl) hself,
      iff_of_false Bool.false_ne_true fun h => h.2 rfl, of_undated noOid undated⟩
  | @plain v s primitive =>
    refine ⟨.string s, rfl, .plain primitive, iff_of_false Bool.false_ne_true ?_, rfl⟩
    rintro ⟨⟨o, rfl⟩, -⟩
    cases primitive

end Normal

section Respelled

inductive SameDate (x x' : Option Value) : Prop where
  | intro {d d' : String} {t t' : Time.Instant} (wrapped : DateShape.of x = .wrapped d)
      (wrapped' : DateShape.of x' = .wrapped d') (dated : parseDate d = .ok t)
      (dated' : parseDate d' = .ok t')
      (millis : t.millis = t'.millis) (leap : t.IsLeap ↔ t'.IsLeap)

structure Respelled (o o' : Document) : Prop where
  keys : Object.keys o' = Object.keys o
  members : ∀ k, Object.get? o' k = Object.get? o k ∨
    k ∈ Field.dates ∧ SameDate (Object.get? o k) (Object.get? o' k)

variable {o o' u u' : Document} {x x' y y' : Option Value}

lemma canonicalDate_of_parseDate {d : String} {t : Time.Instant} (h : parseDate d = .ok t) :
    canonicalDate d = .ok t.canonical := by
  rw [canonicalDate, h]
  rfl

lemma SameDate.canonised (h : SameDate x x') (hy : Canonised x y) (hy' : Canonised x' y') : y' = y := by
  obtain ⟨hw, hw', hd, hd', hm, hl⟩ := h
  obtain ⟨c, hc, rfl⟩ := hy.string_of_wrapped hw
  obtain ⟨c', hc', rfl⟩ := hy'.string_of_wrapped hw'
  rw [canonicalDate_of_parseDate hd] at hc
  rw [canonicalDate_of_parseDate hd'] at hc'
  have hr := Time.readAs_regular (parseDate_eq_ok.mp hd)
  have hr' := Time.readAs_regular (parseDate_eq_ok.mp hd')
  rw [← Except.ok.inj hc, ← Except.ok.inj hc', hr.canonical_eq hr' hm hl]

lemma wrapped?_object (o : Document) (k : String) :
    (Value.object o).wrapped? k =
      if Object.keys o = [k] then (Object.get? o k).bind (·.primitive?) else none := by
  match o with
  | [] => rfl
  | [(l, v)] =>
    by_cases hl : l = k
    · subst hl
      simp [Value.wrapped?, Object.get?_cons]
    · simp [Value.wrapped?, hl]
  | m :: n :: o => simp [Value.wrapped?]

namespace Respelled

variable (h : Respelled o o')
include h

lemma get?_eq {k : String} (hk : k ∉ Field.dates) : Object.get? o' k = Object.get? o k :=
  (h.members k).resolve_right fun hd => hk hd.1

lemma hasWrappedDate (f : String) : o'.hasWrappedDate f = o.hasWrappedDate f := by
  rcases h.members f with he | ⟨-, hw, hw', -, -, -, -⟩
  · rw [Document.hasWrappedDate, Document.hasWrappedDate, he]
  · rw [Document.hasWrappedDate, Document.hasWrappedDate, hw, hw']

lemma find?_wrappedDates (fs : List String) :
    (o'.wrappedDates fs).find? isUnread = (o.wrappedDates fs).find? isUnread := by
  refine find?_wrappedDates_congr fun f _ => ?_
  rcases h.members f with he | ⟨-, hw, hw', hd, hd', -, -⟩
  · have hsame : o'.wrappedDates [f] = o.wrappedDates [f] :=
      wrappedDates_congr fun k hk => by rw [List.mem_singleton.mp hk, he]
    rw [hsame]
  · rw [wrappedDates_wrapped o' f hw', wrappedDates_wrapped o f hw]
    simp [isUnread, parseDate_eq_ok.mp hd, parseDate_eq_ok.mp hd']

lemma flattened (hn : (Object.keys o).Nodup) (hu : o.flattenDates Field.dates = ⟨u, none⟩)
    (hu' : o'.flattenDates Field.dates = ⟨u', none⟩) : u' = u := by
  obtain ⟨hkeys, hne, hc⟩ := flattenDates_spec hu
  obtain ⟨hkeys', hne', hc'⟩ := flattenDates_spec hu'
  refine Object.ext_get? (hkeys ▸ hn) (hkeys'.trans (h.keys.trans hkeys.symm)) fun k => ?_
  by_cases hk : k ∈ Field.dates
  · rcases h.members k with he | ⟨-, hs⟩
    · exact (hc k hk).functional (he ▸ hc' k hk)
    · exact hs.canonised (hc k hk) (hc' k hk)
  · rw [hne k hk, hne' k hk, h.get?_eq hk]

lemma eq_of_undated (hn : (Object.keys o).Nodup) (hu : Field.dates.any o.hasWrappedDate = false) :
    o' = o := by
  refine Object.ext_get? hn h.keys fun k => ?_
  refine (h.members k).resolve_right fun ⟨hk, hw, _, _, _, _, _⟩ => List.any_eq_false.mp hu k hk ?_
  rw [Document.hasWrappedDate, hw]

lemma flattenDates_error : (o'.flattenDates Field.dates).error = (o.flattenDates Field.dates).error := by
  apply Option.ext
  intro e
  rw [Record.flattenDates_error, Record.flattenDates_error, h.find?_wrappedDates]

lemma ofObject (hn : (Object.keys o).Nodup) : Id.ofObject o' = Id.ofObject o := by
  cases hd : Field.dates.any o.hasWrappedDate with
  | false => rw [h.eq_of_undated hn hd]
  | true =>
    have hd' : Field.dates.any o'.hasWrappedDate = true := by
      rw [← hd]
      exact congrArg Field.dates.any (funext h.hasWrappedDate)
    have he := h.flattenDates_error
    rw [Id.ofObject, Id.ofObject, if_pos hd, if_pos hd']
    rcases hf : o.flattenDates Field.dates with ⟨u, _ | e⟩ <;>
      rcases hf' : o'.flattenDates Field.dates with ⟨u', _ | e'⟩ <;> rw [hf, hf'] at he <;> cases he
    · rw [h.flattened hn hf hf']
    · rfl

lemma wrapped?_oid : (Value.object o').wrapped? Field.oid = (Value.object o).wrapped? Field.oid := by
  rw [wrapped?_object, wrapped?_object, h.keys, h.get?_eq (by decide)]

lemma id_of (hn : (Object.keys o).Nodup) : Id.of (some (.object o')) = Id.of (some (.object o)) := by
  rw [Id.of, Id.of, h.wrapped?_oid, h.ofObject hn]

end Respelled

end Respelled

lemma legible_of_isInteger {o : Document} (hk : (Value.object o).Keyed)
    (hint : (Value.object o).Holds Number.IsInteger (fun _ => True))
    (hd : (Value.object o).depth ≤ maxDepth) : o.Legible :=
  ⟨hk, hint.imp (fun _ => reread?_of_isInteger) (fun _ => id), hd⟩

/-- What is made of an id, if the numbers in it are whole numbers of 64 bits and it could be read. -/
theorem id_normalized (x : Option Value)
    (hx : ∀ o, x = some (.object o) → (Value.object o).Keyed ∧
      (Value.object o).Holds Number.IsInteger (fun _ => True) ∧ (Value.object o).depth ≤ maxDepth) :
    ((∃ i, Id.of x = .ok i ∧ i.form = .invalid) ↔ x = none ∨ x = some .null ∨ ∃ vs, x = some (.array vs)) ∧
    ((∃ e, Id.of x = .error e) ↔ Id.Undatable x) ∧
    (∀ i, Id.of x = .ok i → i.form ≠ .invalid →
      ∃ v w, x = some v ∧ i.value = .ok w ∧ Id.Normal v w ∧
        ∃ j, Id.of (some w) = .ok j ∧ j.text = i.text ∧ j.form.isModified = false ∧ j.value = .ok w) ∧
    (∀ i, Id.of x = .ok i →
      (i.form.isModified = true ↔ ∃ o w, x = some (.object o) ∧ i.value = .ok w ∧ w ≠ .object o)) ∧
    ∀ o o', x = some (.object o) → Respelled o o' → Id.of (some (.object o')) = Id.of x := by
  have hlegible : ∀ o, x = some (.object o) → Document.Legible o :=
    fun o ho => legible_of_isInteger (hx o ho).1 (hx o ho).2.1 (hx o ho).2.2
  refine ⟨Id.of_invalid_iff, Id.of_error_iff, fun i hi hne => ?_, fun i hi => ?_, ?_⟩
  · obtain ⟨v, rfl, hr⟩ := Id.reads_of hi hne
    obtain ⟨w, hw, hn, -, hj⟩ := hr.normal fun o ho => hlegible o (congrArg some ho)
    exact ⟨v, w, rfl, hw, hn, i.settled, hj, rfl, i.settled_form, i.settled_value.trans hw⟩
  · by_cases hne : i.form = .invalid
    · rw [hne]
      refine iff_of_false Bool.false_ne_true ?_
      rintro ⟨o, w, rfl, hw, -⟩
      rw [Id.value, if_pos hne] at hw
      cases hw
    · obtain ⟨v, rfl, hr⟩ := Id.reads_of hi hne
      obtain ⟨w, hw, -, hm, -⟩ := hr.normal fun o ho => hlegible o (congrArg some ho)
      rw [hm]
      constructor
      · rintro ⟨⟨o, rfl⟩, hwv⟩
        exact ⟨o, w, rfl, hw, hwv⟩
      · rintro ⟨o, w', ho, hw', hwv⟩
        cases ho
        cases hw.symm.trans hw'
        exact ⟨⟨o, rfl⟩, hwv⟩
  · rintro o o' rfl h
    exact h.id_of (hx o rfl).1.1

def datedId (date : String) : Document := [
  ("n", .number (.int (.nearest 1))),
  ("createdDateTime", .object [("$date", .string date)]),
  ("x", .object [("$date", .string "2019-07-04T07:27:35.104Z")])]

lemma respelled_datedId {d d' : String} {t t' : Time.Instant} (h : parseDate d = .ok t)
    (h' : parseDate d' = .ok t') (hm : t.millis = t'.millis) (hl : t.IsLeap ↔ t'.IsLeap) :
    Respelled (datedId d) (datedId d') := by
  refine ⟨rfl, fun k => ?_⟩
  by_cases hk : k = Field.created
  · rw [hk]
    exact .inr ⟨by decide, rfl, rfl, h, h', hm, hl⟩
  · rw [Field.created] at hk
    simp [datedId, Object.get?_cons, hk]

theorem id_normalized_zones : ∃ w,
    Id.of (some (.object (datedId "2019-07-04T07:27:35.104Z"))) =
      .ok ⟨"\x7b\"n\":1,\"createdDateTime\":\"2019-07-04T07:27:35.104+0000\"," ++
        "\"x\":\x7b\"$date\":\"2019-07-04T07:27:35.104Z\"\x7d\x7d", .flattenedDates⟩ ∧
    Id.of (some (.object (datedId "2019-07-04T09:27:35.1049+0200"))) =
      Id.of (some (.object (datedId "2019-07-04T07:27:35.104Z"))) ∧
    Id.Normal (.object (datedId "2019-07-04T07:27:35.104Z")) w ∧
    w ≠ .object (datedId "2019-07-04T07:27:35.104Z") := by
  have hi : Id.of (some (.object (datedId "2019-07-04T07:27:35.104Z"))) =
      .ok ⟨"\x7b\"n\":1,\"createdDateTime\":\"2019-07-04T07:27:35.104+0000\"," ++
        "\"x\":\x7b\"$date\":\"2019-07-04T07:27:35.104Z\"\x7d\x7d", .flattenedDates⟩ := by
    decide +kernel
  have h : parseDate "2019-07-04T07:27:35.104Z" = .ok ⟨1562225255, 104000000⟩ := by decide +kernel
  have h' : parseDate "2019-07-04T09:27:35.1049+0200" = .ok ⟨1562225255, 104900000⟩ := by decide +kernel
  obtain ⟨-, -, hnormal, hmodified, hsame⟩ :=
    id_normalized (some (.object (datedId "2019-07-04T07:27:35.104Z"))) (by
      rintro o ⟨⟩
      exact ⟨⟨by decide, trivial, ⟨by decide, trivial, trivial⟩, ⟨by decide, trivial, trivial⟩, trivial⟩,
        ⟨trivial, trivial, ⟨trivial, trivial, trivial⟩, ⟨trivial, trivial, trivial⟩, trivial⟩, by decide⟩)
  obtain ⟨v, w, hv, hw, hn, -⟩ := hnormal _ hi (by decide)
  obtain ⟨o, w', ho, hw', hne⟩ := (hmodified _ hi).mp rfl
  cases hv
  cases ho
  cases hw.symm.trans hw'
  exact ⟨w, hi, hsame _ _ rfl (respelled_datedId h h' (by decide) (by simp [Time.Instant.IsLeap])), hn, hne⟩

end DumpImport.Record
