import DumpImport.Proofs.Record.Serialization

namespace DumpImport.Record

open Json

section Ids

def Id.Missing (x : Option Value) : Prop := ∀ v, x = some v → v = .null ∨ ∃ vs, v = .array vs

lemma Id.invalid_iff_missing {x : Option Value} {i : Id} (h : Id.of x = .ok i) :
    i.form = .invalid ↔ Id.Missing x := by
  constructor
  · intro hi v hv
    subst hv
    unfold Id.of at h
    cases hw : v.wrapped? Field.oid with
    | some s =>
      simp only [hw] at h
      cases h
      cases hi
    | none =>
      simp only [hw] at h
      cases v with
      | null => exact .inl rfl
      | array vs => exact .inr ⟨vs, rfl⟩
      | object o => cases reads_of_ofObject hw h <;> cases hi
      | bool | number | string => cases h; cases hi
  · intro hm
    by_contra hi
    obtain ⟨v, hv, hr⟩ := reads_of h hi
    rcases hm v hv with rfl | ⟨vs, rfl⟩ <;> cases hr <;> rename_i hx <;> cases hx

lemma Id.wrappedDates_missing {x : Option Value} (h : Id.Missing x) : Id.wrappedDates x = [] := by
  cases x with
  | none => rfl
  | some v => rcases h v rfl with rfl | ⟨vs, rfl⟩ <;> rfl

lemma readId_eq_error {o : Document} {e : Error} : o.readId = .error e ↔
    (∃ s, (Id.wrappedDates (Object.get? o Field.id)).find? isUnread = some s ∧ e = .unparseableDate s) ∨
      Id.Missing (Object.get? o Field.id) ∧ e = .invalid .missingId := by
  rw [Document.readId, bind_eq_error, Id.of_complains]
  refine or_congr_right ⟨?_, ?_⟩
  · rintro ⟨i, hi, he⟩
    split_ifs at he with hf
    cases he
    exact ⟨(Id.invalid_iff_missing hi).mp hf, rfl⟩
  · rintro ⟨hm, rfl⟩
    have hc := Id.of_complains (Object.get? o Field.id)
    rw [Id.wrappedDates_missing hm] at hc
    cases hi : Id.of (Object.get? o Field.id) with
    | error e =>
      obtain ⟨s, hs, -⟩ := (hc e).mp hi
      cases hs
    | ok i => exact ⟨i, rfl, if_pos ((Id.invalid_iff_missing hi).mpr hm)⟩

lemma exists_readId {o : Document} (hd : (Id.wrappedDates (Object.get? o Field.id)).find? isUnread = none)
    (hm : ¬ Id.Missing (Object.get? o Field.id)) : ∃ i, o.readId = .ok i := by
  cases hi : o.readId with
  | ok i => exact ⟨i, rfl⟩
  | error e =>
    rcases readId_eq_error.mp hi with ⟨s, hs, -⟩ | ⟨h, -⟩
    · cases hd.symm.trans hs
    · exact absurd h hm

lemma present_of_readId {o : Document} {i : Id} (h : o.readId = .ok i) :
    (Id.wrappedDates (Object.get? o Field.id)).find? isUnread = none ∧
    ¬ Id.Missing (Object.get? o Field.id) := by
  obtain ⟨j, hj, hi⟩ := bind_eq_ok.mp h
  split_ifs at hi with hf
  exact ⟨(Id.of_complains _).find?_of_ok hj, fun hm => hf ((Id.invalid_iff_missing hj).mpr hm)⟩

end Ids

section Lines

inductive Refused (line : String) : Rejection → Prop where
  | malformed {e} (unread : parse line = .error e) : Refused line (.malformed e)
  | notObject {v} (read : parse line = .ok v) (other : ∀ o, v ≠ .object o) : Refused line .notObject
  | removed {o v} (read : parse line = .ok (.object o)) (wrapper : Object.get? o Field.removed = some v)
      (other : ∀ i, v ≠ .object i) : Refused line (.wrapperNotObject Field.removed)
  | archived {o u b v} (read : parse line = .ok (.object o))
      (unwrapped : Deletion.removed.unwrap o = .ok (u, b))
      (wrapper : Object.get? u Field.archived = some v) (other : ∀ i, v ≠ .object i) :
      Refused line (.wrapperNotObject Field.archived)
  | missingId {o u} (read : parse line = .ok (.object o)) (unwrapped : Document.unwrap o = .ok u)
      (missing : Id.Missing (Object.get? u.document Field.id)) : Refused line .missingId

def Document.datesToRead (o : Document) : List String :=
  Id.wrappedDates (Object.get? o Field.id) ++ o.wrappedDates Field.datesRead

/-- The first text that had to be a date and is none; the one chosen for the last modified date is
read after all that are wrapped. -/
inductive Document.Unreadable (o : Document) : String → Prop where
  | wrapped {s} (first : o.datesToRead.find? isUnread = some s) : Unreadable o s
  | chosen {s source} (readable : o.datesToRead.find? isUnread = none)
      (chosen : Chosen (Object.get? o Field.lastModified) (Object.get? o Field.created) s source)
      (unread : isUnread s = true) : Unreadable o s

variable {line : String} {o : Document} {u : Unwrapped} {e : Error}

lemma parseDocument_eq_error : parseDocument line = .error e ↔
    (∃ f, parse line = .error f ∧ e = .invalid (.malformed f)) ∨
      (∃ v, parse line = .ok v ∧ ∀ o, v ≠ .object o) ∧ e = .invalid .notObject := by
  rw [parseDocument]
  cases parse line with
  | error f => simp [eq_comm]
  | ok v => cases v <;> simp [eq_comm]

def Unwrapped.prepare (u : Unwrapped) : Except Error Prepared := do
  let id ← u.document.readId
  let dates ← u.document.readDates
  let o ← u.document.withId id
  let version ← millisOf dates.lastModified.text
  .ok ⟨o.withDates dates, id, dates, ⟨dates.created.altered, dates.removed.altered, dates.archived.altered,
    u.removed, u.archived⟩, version⟩

lemma prepare_eq (line : String) : prepare line = parseDocument line >>= fun o =>
    o.unwrap >>= Unwrapped.prepare := rfl

lemma prepare_of_unwrap (ho : parseDocument line = .ok o) (hu : o.unwrap = .ok u) :
    prepare line = u.prepare := by
  rw [prepare_eq, ho]
  exact congrArg (· >>= Unwrapped.prepare) hu

lemma Chosen.unique {x y : Option Value} {s s' : String} {a b : DateSource} (h : Chosen x y s a)
    (h' : Chosen x y s' b) : s = s' := by
  cases h with
  | wrapped present wrapped canonical =>
    cases h' with
    | wrapped present' wrapped' canonical' =>
      cases present.symm.trans present'
      cases wrapped.symm.trans wrapped'
      exact Except.ok.inj (canonical.symm.trans canonical')
    | plain present' primitive =>
      cases present.symm.trans present'
      cases wrapped.symm.trans (DateShape.wrapped?_of_primitive? _ primitive)
    | created missing | epoch missing => cases wrapped.symm.trans (missing _ present).1
  | plain present primitive =>
    cases h' with
    | wrapped present' wrapped =>
      cases present.symm.trans present'
      cases wrapped.symm.trans (DateShape.wrapped?_of_primitive? _ primitive)
    | plain present' primitive' =>
      cases present.symm.trans present'
      exact Option.some.inj (primitive.symm.trans primitive')
    | created missing | epoch missing => cases primitive.symm.trans (missing _ present).2
  | created missing normalized filled =>
    cases h' with
    | wrapped present wrapped => cases wrapped.symm.trans (missing _ present).1
    | plain present primitive => cases primitive.symm.trans (missing _ present).2
    | created _ normalized' =>
      cases normalized.symm.trans normalized'
      rfl
    | epoch _ normalized' blank =>
      cases normalized.symm.trans normalized'
      exact absurd blank filled
  | epoch missing normalized blank =>
    cases h' with
    | wrapped present wrapped => cases wrapped.symm.trans (missing _ present).1
    | plain present primitive => cases primitive.symm.trans (missing _ present).2
    | created _ normalized' filled =>
      cases normalized.symm.trans normalized'
      exact absurd blank filled
    | epoch => rfl

lemma millisOf_eq_error {s : String} : millisOf s = .error e ↔
    isUnread s = true ∧ e = .unparseableDate s := by
  rw [millisOf, (parseDate_complains s).map]
  cases hs : isUnread s <;> simp [hs]

lemma chosen_of_readDates {d : Dates} (h : o.readDates = .ok d) :
    Chosen (Object.get? o Field.lastModified) (Object.get? o Field.created) d.lastModified.text
      d.lastModified.source := by
  obtain ⟨hc, -, -, hl⟩ := readDates_eq_ok h
  exact chosen_of_lastModified hc hl

section Prepared

variable (hid : ∀ i, u.document.readId = .ok i → ∃ f, u.document.withId i = .ok f)

include hid

lemma Unwrapped.fault_of_prepare (h : u.prepare = .error e) :
    Id.Missing (Object.get? u.document Field.id) ∧ e = .invalid .missingId ∨
      ¬ Id.Missing (Object.get? u.document Field.id) ∧ ∃ s, u.document.Unreadable s ∧
      e = .unparseableDate s := by
  rcases bind_eq_error.mp h with hi | ⟨i, hi, h⟩
  · rcases readId_eq_error.mp hi with ⟨s, hs, rfl⟩ | hm
    · refine .inr ⟨fun hm => ?_, s, .wrapped ?_, rfl⟩
      · rw [Id.wrappedDates_missing hm] at hs
        cases hs
      · rw [Document.datesToRead, List.find?_append, hs, Option.some_or]
    · exact .inl hm
  obtain ⟨hnone, hpresent⟩ := present_of_readId hi
  rcases bind_eq_error.mp h with hd | ⟨d, hd, h⟩
  · obtain ⟨s, hs, rfl⟩ := (readDates_complains _ e).mp hd
    refine .inr ⟨hpresent, s, .wrapped ?_, rfl⟩
    rw [Document.datesToRead, List.find?_append, hnone, hs, Option.none_or]
  rcases bind_eq_error.mp h with hf | ⟨f, -, h⟩
  · obtain ⟨f, hf'⟩ := hid i hi
    cases hf.symm.trans hf'
  rcases bind_eq_error.mp h with ht | ⟨t, -, h⟩
  · obtain ⟨hunread, rfl⟩ := millisOf_eq_error.mp ht
    refine .inr ⟨hpresent, _, .chosen ?_ (chosen_of_readDates hd) hunread, rfl⟩
    rw [Document.datesToRead, List.find?_append, hnone,
      (readDates_complains _).find?_of_ok hd, Option.none_or]
  · cases h

lemma Unwrapped.prepare_unreadable (hm : ¬ Id.Missing (Object.get? u.document Field.id)) {s : String}
    (hs : u.document.Unreadable s) : u.prepare = .error (.unparseableDate s) := by
  cases hs with
  | wrapped first =>
    rw [Document.datesToRead, List.find?_append] at first
    cases hf : (Id.wrappedDates (Object.get? u.document Field.id)).find? isUnread with
    | some t =>
      rw [hf] at first
      cases first
      exact bind_eq_error.mpr (.inl (readId_eq_error.mpr (.inl ⟨_, hf, rfl⟩)))
    | none =>
      obtain ⟨i, hi⟩ := exists_readId hf hm
      rw [hf, Option.none_or] at first
      have hd := (readDates_complains u.document _).mpr ⟨s, first, rfl⟩
      simp only [Unwrapped.prepare, hi, hd, bind, Except.bind]
  | chosen readable chosen unread =>
    rw [Document.datesToRead, List.find?_append, Option.or_eq_none_iff] at readable
    obtain ⟨i, hi⟩ := exists_readId readable.1 hm
    obtain ⟨d, hd⟩ := (readDates_complains u.document).exists_ok readable.2
    obtain ⟨f, hf⟩ := hid i hi
    obtain rfl := chosen.unique (chosen_of_readDates hd)
    have ht : millisOf d.lastModified.text = .error (.unparseableDate d.lastModified.text) :=
      millisOf_eq_error.mpr ⟨unread, rfl⟩
    simp only [Unwrapped.prepare, hi, hd, hf, ht, bind, Except.bind]

end Prepared

lemma exists_withId (ho : parseDocument line = .ok o) (hu : o.unwrap = .ok u) {i : Id}
    (hi : u.document.readId = .ok i) : ∃ f, u.document.withId i = .ok f := by
  obtain ⟨v, w, -, hw, -⟩ := exists_value_of_readId ho hu hi
  rw [Document.withId, hw]
  split_ifs
  · exact ⟨_, rfl⟩
  · exact ⟨_, rfl⟩

lemma refused_of_unwrap (hp : parse line = .ok (.object o)) (h : o.unwrap = .error e) :
    ∃ r, e = .invalid r ∧ Refused line r := by
  rcases unwrap_eq_error_iff.mp h with hr | ⟨u, hr, ha⟩
  · obtain ⟨⟨v, hv, hn⟩, rfl⟩ := Deletion.unwrap_eq_error.mp hr
    exact ⟨_, rfl, .removed hp hv hn⟩
  · obtain ⟨⟨v, hv, hn⟩, rfl⟩ := Deletion.unwrap_eq_error.mp ha
    exact ⟨_, rfl, .archived hp hr hv hn⟩

lemma refused_of_prepare {r : Rejection} (h : prepare line = .error (.invalid r)) : Refused line r := by
  rcases bind_eq_error.mp h with ho | ⟨o, ho, h⟩
  · rcases parseDocument_eq_error.mp ho with ⟨f, hf, he⟩ | ⟨⟨v, hv, hn⟩, he⟩
    · cases he
      exact .malformed hf
    · cases he
      exact .notObject hv hn
  have hp := parseDocument_eq_ok.mp ho
  rcases bind_eq_error.mp h with hu | ⟨u, hu, h⟩
  · obtain ⟨r', he, hr⟩ := refused_of_unwrap hp hu
    cases he
    exact hr
  rcases Unwrapped.fault_of_prepare (fun i => exists_withId ho hu) h with ⟨hm, he⟩ | ⟨-, s, -, he⟩
  · cases he
    exact .missingId hp hu hm
  · cases he

lemma prepare_of_refused {r : Rejection} (h : Refused line r) : prepare line = .error (.invalid r) := by
  cases h with
  | malformed unread => exact bind_eq_error.mpr (.inl (parseDocument_eq_error.mpr (.inl ⟨_, unread, rfl⟩)))
  | notObject read other =>
    exact bind_eq_error.mpr (.inl (parseDocument_eq_error.mpr (.inr ⟨⟨_, read, other⟩, rfl⟩)))
  | @removed o v read wrapper other =>
    have hr : Deletion.removed.unwrap o = .error _ := Deletion.unwrap_eq_error.mpr ⟨⟨v, wrapper, other⟩, rfl⟩
    have hu := unwrap_eq_error_iff.mpr (.inl hr)
    exact bind_eq_error.mpr (.inr ⟨o, parseDocument_eq_ok.mpr read, bind_eq_error.mpr (.inl hu)⟩)
  | @archived o u b v read unwrapped wrapper other =>
    have ha : Deletion.archived.unwrap u = .error _ := Deletion.unwrap_eq_error.mpr ⟨⟨v, wrapper, other⟩, rfl⟩
    have hu := unwrap_eq_error_iff.mpr (.inr ⟨(u, b), unwrapped, ha⟩)
    exact bind_eq_error.mpr (.inr ⟨o, parseDocument_eq_ok.mpr read, bind_eq_error.mpr (.inl hu)⟩)
  | missingId read unwrapped missing =>
    rw [prepare_of_unwrap (parseDocument_eq_ok.mpr read) unwrapped]
    exact bind_eq_error.mpr (.inl (readId_eq_error.mpr (.inr ⟨missing, rfl⟩)))

lemma prepare_eq_unparseable {s : String} : prepare line = .error (.unparseableDate s) ↔
    (∀ r, ¬ Refused line r) ∧ ∃ o u, parseDocument line = .ok o ∧ o.unwrap = .ok u ∧
    u.document.Unreadable s := by
  constructor
  · intro h
    refine ⟨fun r hr => ?_, ?_⟩
    · cases h.symm.trans (prepare_of_refused hr)
    rcases bind_eq_error.mp h with ho | ⟨o, ho, h⟩
    · rcases parseDocument_eq_error.mp ho with ⟨f, -, he⟩ | ⟨-, he⟩ <;> cases he
    rcases bind_eq_error.mp h with hu | ⟨u, hu, h⟩
    · obtain ⟨r, he, -⟩ := refused_of_unwrap (parseDocument_eq_ok.mp ho) hu
      cases he
    rcases Unwrapped.fault_of_prepare (fun i => exists_withId ho hu) h with ⟨-, he⟩ | ⟨-, t, ht, he⟩
    · cases he
    · cases he
      exact ⟨o, u, ho, hu, ht⟩
  · rintro ⟨hn, o, u, ho, hu, hs⟩
    have hm : ¬ Id.Missing (Object.get? u.document Field.id) := fun hm =>
      hn .missingId (.missingId (parseDocument_eq_ok.mp ho) hu hm)
    rw [prepare_of_unwrap ho hu]
    exact Unwrapped.prepare_unreadable (fun i => exists_withId ho hu) hm hs

end Lines

section Outcomes

variable {m m' : Mapper} {c c' : Dump.Collection} {d d' : Draw} {line line' : String}
  {p : Prepared} {e : Error}

lemma Mapper.error_of_prepare (hp : prepare line = .ok p) (h : m.map c d line = .error e) :
    (∃ f, e = .cipher f) ∨ ∃ f, e = .json f := by
  rcases bind_eq_error.mp h with hp' | ⟨q, hq, h⟩
  · cases hp.symm.trans hp'
  cases hp.symm.trans hq
  rcases bind_eq_error.mp h with hb | ⟨body, hb, h⟩
  · rw [encrypt] at hb
    split at hb
    · cases hb
    · cases hb
      exact .inl ⟨_, rfl⟩
  obtain ⟨o, u, flat, hpr⟩ := prepares_of_prepare hp
  obtain ⟨v, w, -, hw, -⟩ := hpr.exists_value
  rcases bind_eq_error.mp h with he | ⟨t, -, h⟩
  · cases he.symm.trans (build_content hw _)
  rcases bind_eq_error.mp h with hk | ⟨k, -, h⟩
  · rw [Key.ofText] at hk
    split at hk
    · cases hk
    · cases hk
      exact .inr ⟨_, rfl⟩
  · cases h

lemma Mapper.map_eq_error (hc : ∀ f, e ≠ .cipher f) (hj : ∀ f, e ≠ .json f) :
    m.map c d line = .error e ↔ prepare line = .error e := by
  refine ⟨fun h => ?_, fun h => bind_eq_error.mpr (.inl h)⟩
  cases hp : prepare line with
  | error e' =>
    rw [map, hp] at h
    cases h
    rfl
  | ok p =>
    rcases error_of_prepare hp h with ⟨f, rfl⟩ | ⟨f, rfl⟩
    · exact absurd rfl (hc f)
    · exact absurd rfl (hj f)

end Outcomes

section Agreement

variable {o o' : Document} {u u' : Unwrapped} {e : Error}

lemma readId_congr (h : Object.get? o Field.id = Object.get? o' Field.id) : o.readId = o'.readId := by
  rw [Document.readId, Document.readId, h]

lemma readDates_congr (h : ∀ k ∈ Field.dates, Object.get? o k = Object.get? o' k) :
    o.readDates = o'.readDates := by
  simp only [Document.readDates, Document.dateText, Document.lastModified, h Field.created (by decide),
    h Field.lastModified (by decide), h Field.removedDate (by decide), h Field.archivedDate (by decide)]

lemma withId_eq_error {i : Id} : o.withId i = .error e ↔ i.form.isModified = true ∧ i.value = .error e := by
  rw [Document.withId]
  split_ifs with hm <;> simp [hm, map_eq_error]

lemma prepare_error_congr
    (h : ∀ k ∈ Field.id :: Field.dates, Object.get? u.document k = Object.get? u'.document k)
    (he : u.prepare = .error e) : u'.prepare = .error e := by
  rw [List.forall_mem_cons] at h
  rcases bind_eq_error.mp he with hi | ⟨i, hi, he⟩
  · rw [readId_congr h.1] at hi
    exact bind_eq_error.mpr (.inl hi)
  rw [readId_congr h.1] at hi
  refine bind_eq_error.mpr (.inr ⟨i, hi, ?_⟩)
  rcases bind_eq_error.mp he with hd | ⟨d, hd, he⟩
  · rw [readDates_congr h.2] at hd
    exact bind_eq_error.mpr (.inl hd)
  rw [readDates_congr h.2] at hd
  refine bind_eq_error.mpr (.inr ⟨d, hd, ?_⟩)
  rcases bind_eq_error.mp he with hf | ⟨f, hf, he⟩
  · exact bind_eq_error.mpr (.inl (withId_eq_error.mpr (withId_eq_error.mp hf)))
  obtain ⟨f', hf'⟩ : ∃ f', u'.document.withId i = .ok f' := by
    cases hw : u'.document.withId i with
    | ok f' => exact ⟨f', rfl⟩
    | error e' => cases hf.symm.trans (withId_eq_error.mpr (withId_eq_error.mp hw))
  refine bind_eq_error.mpr (.inr ⟨f', hf', ?_⟩)
  rcases bind_eq_error.mp he with ht | ⟨t, -, he⟩
  · exact bind_eq_error.mpr (.inl ht)
  · cases he

end Agreement

/-- A line is refused for its shape or for its id, and else for the first date that cannot be read,
whatever the mapper and its data key; only the fields that hold the id and the dates have a say. -/
theorem rejected_for_first_fault (m : Mapper) (c : Dump.Collection) (d : Draw) (line : String) :
    (∀ r, m.map c d line = .error (.invalid r) ↔ Refused line r) ∧
    (∀ s, m.map c d line = .error (.unparseableDate s) ↔ (∀ r, ¬ Refused line r) ∧
      ∃ o u, parseDocument line = .ok o ∧ o.unwrap = .ok u ∧ u.document.Unreadable s) ∧
    ∀ (m' : Mapper) (c' : Dump.Collection) (d' : Draw) (line' : String) (o o' : Document) (u u' : Unwrapped),
      parseDocument line = .ok o → o.unwrap = .ok u → parseDocument line' = .ok o' → o'.unwrap = .ok u' →
      (∀ k ∈ Field.id :: Field.dates, Object.get? u.document k = Object.get? u'.document k) →
      (∀ r, m.map c d line = .error (.invalid r) ↔ m'.map c' d' line' = .error (.invalid r)) ∧
      ∀ s, m.map c d line = .error (.unparseableDate s) ↔
        m'.map c' d' line' = .error (.unparseableDate s) := by
  refine ⟨fun r => ?_, fun s => ?_, ?_⟩
  · rw [Mapper.map_eq_error (by rintro f ⟨⟩) (by rintro f ⟨⟩)]
    exact ⟨refused_of_prepare, prepare_of_refused⟩
  · rw [Mapper.map_eq_error (by rintro f ⟨⟩) (by rintro f ⟨⟩)]
    exact prepare_eq_unparseable
  · intro m' c' d' line' o o' u u' ho hu ho' hu' hk
    have hsame {e : Error} (hc : ∀ f, e ≠ .cipher f) (hj : ∀ f, e ≠ .json f) :
        m.map c d line = .error e ↔ m'.map c' d' line' = .error e := by
      rw [Mapper.map_eq_error hc hj, Mapper.map_eq_error hc hj, prepare_of_unwrap ho hu,
        prepare_of_unwrap ho' hu']
      exact ⟨prepare_error_congr hk, prepare_error_congr fun k hm => (hk k hm).symm⟩
    exact ⟨fun r => hsame (by rintro f ⟨⟩) (by rintro f ⟨⟩), fun s => hsame (by rintro f ⟨⟩) (by rintro f ⟨⟩)⟩

def undatedLine : String :=
  "\x7b\"_lastModifiedDateTime\":\x7b\"$date\":\"today\"\x7d,\"_id\":7," ++
    "\"createdDateTime\":\x7b\"$date\":\"yesterday\"\x7d\x7d"

def undated : Document := [
  ("_lastModifiedDateTime", .object [("$date", .string "today")]),
  ("_id", .number (.int ⟨7, by decide, by decide⟩)),
  ("createdDateTime", .object [("$date", .string "yesterday")])]

lemma parse_undatedLine : parse undatedLine = .ok (.object undated) := by
  have ht : undatedLine = Object.compact undated := by decide +kernel
  have hl : undated.Legible :=
    ⟨⟨by decide, ⟨by decide, trivial, trivial⟩, trivial, ⟨by decide, trivial, trivial⟩, trivial⟩,
      ⟨trivial, ⟨trivial, trivial, trivial⟩, rfl, ⟨trivial, trivial, trivial⟩, trivial⟩, by decide⟩
  rw [ht, parseDocument_eq_ok.mp (parseDocument_compact hl)]

lemma undated_not_refused (r : Rejection) : ¬ Refused undatedLine r := by
  intro h
  cases h with
  | malformed unread => cases parse_undatedLine.symm.trans unread
  | notObject read other =>
    cases parse_undatedLine.symm.trans read
    exact other _ rfl
  | removed read wrapper =>
    cases parse_undatedLine.symm.trans read
    cases wrapper
  | archived read unwrapped wrapper =>
    cases parse_undatedLine.symm.trans read
    cases unwrapped
    cases wrapper
  | missingId read unwrapped missing =>
    cases parse_undatedLine.symm.trans read
    cases unwrapped
    rcases missing _ rfl with hv | ⟨vs, hv⟩ <;> cases hv

theorem rejected_for_first_fault_sample :
    Mapper.sample.map .unset Mapper.sampleDraw "\x7b\"_removed\":1\x7d" =
      .error (.invalid (.wrapperNotObject "_removed")) ∧
    Mapper.sample.map .unset Mapper.sampleDraw undatedLine = .error (.unparseableDate "yesterday") ∧
    ∀ (m : Mapper) (c : Dump.Collection) (d : Draw) (line : String),
      parse line = .ok (.object undated.reverse) →
      m.map c d line = .error (.unparseableDate "yesterday") := by
  obtain ⟨hshape, -, -⟩ := rejected_for_first_fault .sample .unset Mapper.sampleDraw "\x7b\"_removed\":1\x7d"
  obtain ⟨-, hdate, hsame⟩ := rejected_for_first_fault .sample .unset Mapper.sampleDraw undatedLine
  have ht : "\x7b\"_removed\":1\x7d" =
      Object.compact [("_removed", .number (.int ⟨1, by decide, by decide⟩))] := by
    decide +kernel
  have hp : parse "\x7b\"_removed\":1\x7d" =
      .ok (.object [("_removed", .number (.int ⟨1, by decide, by decide⟩))]) := by
    have hl : Document.Legible [("_removed", .number (.int ⟨1, by decide, by decide⟩))] :=
      ⟨⟨by decide, trivial, trivial⟩, ⟨trivial, rfl, trivial⟩, by decide⟩
    rw [ht, parseDocument_eq_ok.mp (parseDocument_compact hl)]
  have ho := parseDocument_eq_ok.mpr parse_undatedLine
  have hd := (hdate "yesterday").mpr
    ⟨undated_not_refused, undated, ⟨undated, false, false⟩, ho, rfl, .wrapped (by decide +kernel)⟩
  refine ⟨(hshape _).mpr (.removed hp rfl (by rintro i ⟨⟩)), hd, fun m c d line hl => ?_⟩
  have hfields : ∀ k ∈ Field.id :: Field.dates, Object.get? undated k = Object.get? undated.reverse k := by
    simp only [Field.dates, List.forall_mem_cons]
    exact ⟨rfl, rfl, rfl, rfl, rfl, List.forall_mem_nil _⟩
  obtain ⟨-, hs⟩ :=
    hsame m c d line undated undated.reverse ⟨undated, false, false⟩ ⟨undated.reverse, false, false⟩
      ho rfl (parseDocument_eq_ok.mpr hl) rfl hfields
  exact (hs _).mp hd

end DumpImport.Record
