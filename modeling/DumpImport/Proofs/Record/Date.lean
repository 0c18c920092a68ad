import DumpImport.Proofs.Json.Values
import DumpImport.Proofs.Outcome
import DumpImport.Proofs.Time.Reader
import DumpImport.Record.Mapping

namespace DumpImport.Record

open Json

namespace DateShape

variable {x : Option Value} {d : String}

lemma of_eq_absent : of x = .absent ↔ x = none := by
  cases x with
  | none => simp [of]
  | some v => cases hw : v.wrapped? Field.date <;> cases hp : v.primitive? <;> simp [of, hw, hp]

lemma of_eq_wrapped : of x = .wrapped d ↔ ∃ v, x = some v ∧ v.wrapped? Field.date = some d := by
  cases x with
  | none => simp [of]
  | some v => cases hw : v.wrapped? Field.date <;> cases hp : v.primitive? <;> simp [of, hw, hp]

lemma wrapped?_of_primitive? {v : Value} (k : String) (h : v.primitive? = some d) : v.wrapped? k = none := by
  cases v <;> first | rfl | cases h

lemma of_eq_plain : of x = .plain d ↔ ∃ v, x = some v ∧ v.primitive? = some d := by
  cases x with
  | none => simp [of]
  | some v =>
    cases hp : v.primitive? with
    | none => cases hw : v.wrapped? Field.date <;> simp [of, hw, hp]
    | some e => simp [of, wrapped?_of_primitive? Field.date hp, hp]

lemma of_eq_malformed :
    of x = .malformed ↔ ∃ v, x = some v ∧ v.wrapped? Field.date = none ∧ v.primitive? = none := by
  cases x with
  | none => simp [of]
  | some v => cases hw : v.wrapped? Field.date <;> cases hp : v.primitive? <;> simp [of, hw, hp]

end DateShape

lemma string_of_millisOf {v : Value} {d : String} {t : Int} (hp : v.primitive? = some d)
    (ht : millisOf d = .ok t) : v = .string d := by
  have hn : Time.read d ≠ none := by
    intro hn
    rw [millisOf, parseDate, hn] at ht
    cases ht
  cases v with
  | string s =>
    cases hp
    rfl
  | number n =>
    cases hp
    exact absurd (Time.read_number n) hn
  | bool b =>
    cases hp
    exact absurd (Time.read_bool b) hn
  | null => cases hp
  | array vs => cases hp
  | object ms => cases hp

section Flattening

def Canonised (before after : Option Value) : Prop :=
  match DateShape.of before with
  | .wrapped d => ∃ t, canonicalDate d = .ok t ∧ after = some (.string t)
  | _ => after = before

lemma canonised_self {x : Option Value} (h : ∀ d, DateShape.of x ≠ .wrapped d) : Canonised x x := by
  rw [Canonised]
  split
  · rename_i hd
    exact absurd hd (h _)
  · rfl

lemma Canonised.string_of_wrapped {x y : Option Value} (h : Canonised x y) {d : String}
    (hd : DateShape.of x = .wrapped d) : ∃ s, canonicalDate d = .ok s ∧ y = some (.string s) := by
  rw [Canonised, hd] at h
  exact h

lemma Canonised.eq_of_unwrapped {x y : Option Value} (h : Canonised x y)
    (hn : ∀ d, DateShape.of x ≠ .wrapped d) : y = x := by
  rw [Canonised] at h
  split at h
  · rename_i hd
    exact absurd hd (hn _)
  · exact h

lemma Canonised.not_wrapped {before after : Option Value} (h : Canonised before after) :
    ∀ d, DateShape.of after ≠ .wrapped d := by
  intro d hd
  rw [Canonised] at h
  split at h
  · obtain ⟨t, -, rfl⟩ := h
    cases hd
  · rename_i hn
    rw [h] at hd
    exact hn d hd

lemma Canonised.trans {x y z : Option Value} (h : Canonised x y) (h' : Canonised y z) : Canonised x z := by
  rw [h'.eq_of_unwrapped h.not_wrapped]
  exact h

lemma Canonised.functional {x y y' : Option Value} (h : Canonised x y) (h' : Canonised x y') : y' = y := by
  by_cases hd : ∃ d, DateShape.of x = .wrapped d
  · obtain ⟨d, hd⟩ := hd
    obtain ⟨c, hc, rfl⟩ := h.string_of_wrapped hd
    obtain ⟨c', hc', rfl⟩ := h'.string_of_wrapped hd
    rw [Except.ok.inj (hc.symm.trans hc')]
  · rw [h.eq_of_unwrapped (not_exists.mp hd), h'.eq_of_unwrapped (not_exists.mp hd)]

lemma flattenDate_spec {o o' : Document} {f : String} (h : o.flattenDate f = .ok o') :
    Object.keys o' = Object.keys o ∧ (∀ k, k ≠ f → Object.get? o' k = Object.get? o k) ∧
      Canonised (Object.get? o f) (Object.get? o' f) := by
  rw [Document.flattenDate] at h
  rw [Canonised]
  cases hs : DateShape.of (Object.get? o f) with
  | wrapped d =>
    rw [hs] at h
    obtain ⟨t, ht, rfl⟩ := map_eq_ok.mp h
    obtain ⟨v, hv, -⟩ := DateShape.of_eq_wrapped.mp hs
    refine ⟨?_, fun k hk => Object.get?_insert_ne o _ hk, t, ht, Object.get?_insert_self o f _⟩
    rw [Object.keys_insert, if_pos (Object.mem_keys_of_get? hv)]
  | absent => rw [hs] at h; cases h; exact ⟨rfl, fun _ _ => rfl, rfl⟩
  | plain d => rw [hs] at h; cases h; exact ⟨rfl, fun _ _ => rfl, rfl⟩
  | malformed => rw [hs] at h; cases h; exact ⟨rfl, fun _ _ => rfl, rfl⟩

lemma flattenDates_cons {o o' : Document} {f : String} {fs : List String}
    (h : o.flattenDates (f :: fs) = ⟨o', none⟩) :
    ∃ u, o.flattenDate f = .ok u ∧ Document.flattenDates u fs = ⟨o', none⟩ := by
  rw [Document.flattenDates] at h
  rcases hf : o.flattenDate f with e | u <;> rw [hf] at h
  · cases h
  · exact ⟨u, rfl, h⟩

lemma flattenDates_spec {fs : List String} {o o' : Document} (h : o.flattenDates fs = ⟨o', none⟩) :
    Object.keys o' = Object.keys o ∧ (∀ k, k ∉ fs → Object.get? o' k = Object.get? o k) ∧
      ∀ k ∈ fs, Canonised (Object.get? o k) (Object.get? o' k) := by
  induction fs generalizing o with
  | nil =>
    cases h
    exact ⟨rfl, fun _ _ => rfl, fun _ h => nomatch h⟩
  | cons f fs ih =>
    obtain ⟨u, hu, h⟩ := flattenDates_cons h
    obtain ⟨hk, hne, hc⟩ := flattenDate_spec hu
    obtain ⟨hk', hne', hc'⟩ := ih h
    refine ⟨hk'.trans hk, fun k hm => ?_, fun k hm => ?_⟩
    · rw [List.mem_cons, not_or] at hm
      rw [hne' k hm.2, hne k hm.1]
    · by_cases he : k = f
      · subst he
        by_cases hf : k ∈ fs
        · exact hc.trans (hc' k hf)
        · rw [hne' k hf]
          exact hc
      · rw [← hne k he]
        exact hc' k ((List.mem_cons.mp hm).resolve_left he)

lemma flattenDates_all {P : Value → Prop} (hs : ∀ s, P (.string s)) {fs : List String} {o o' : Document}
    (h : o.flattenDates fs = ⟨o', none⟩) (ho : Object.All P o) : Object.All P o' := by
  induction fs generalizing o with
  | nil =>
    cases h
    exact ho
  | cons f fs ih =>
    obtain ⟨u, hu, h⟩ := flattenDates_cons h
    refine ih h ?_
    rw [Document.flattenDate] at hu
    split at hu
    · obtain ⟨t, -, rfl⟩ := map_eq_ok.mp hu
      exact ho.insert (hs t) f
    · cases hu
      exact ho

end Flattening

section Overwriting

variable {o : Document} {f k : String}

lemma get?_overwriteIf_ne {cond : Bool} {t : String} (h : k ≠ f) :
    Object.get? (o.overwriteIf cond f t) k = Object.get? o k := by
  cases cond with
  | false => rfl
  | true => exact Object.get?_insert_ne o _ h

lemma get?_overwriteIf_self {cond : Bool} {t : String} :
    Object.get? (o.overwriteIf cond f t) f = if cond then some (.string t) else Object.get? o f := by
  cases cond with
  | false => rfl
  | true => exact Object.get?_insert_self o f _

lemma keys_overwriteIf {cond : Bool} {t : String} (h : cond = true → f ∈ Object.keys o) :
    Object.keys (o.overwriteIf cond f t) = Object.keys o := by
  cases cond with
  | false => rfl
  | true => exact (Object.keys_insert o f _).trans (if_pos (h rfl))

lemma keys_overwriteIf_of_notMem {cond : Bool} {t : String} (h : f ∉ Object.keys o → cond = true) :
    Object.keys (o.overwriteIf cond f t) =
      if f ∈ Object.keys o then Object.keys o else Object.keys o ++ [f] := by
  by_cases hf : f ∈ Object.keys o
  · rw [keys_overwriteIf fun _ => hf, if_pos hf]
  · rw [h hf]
    exact Object.keys_insert o f _

def Document.overwritten (o : Document) : List (String × DateText) → Document
  | [] => o
  | (f, t) :: ts => overwritten (overwriteIf t.modified o f t.text) ts

lemma get?_overwritten_of_notMem {ts : List (String × DateText)} (h : k ∉ ts.map Prod.fst) :
    Object.get? (o.overwritten ts) k = Object.get? o k := by
  induction ts generalizing o with
  | nil => rfl
  | cons t ts ih =>
    rw [List.map_cons, List.mem_cons, not_or] at h
    exact (ih h.2).trans (get?_overwriteIf_ne h.1)

lemma get?_overwritten {ts : List (String × DateText)} (hn : (ts.map Prod.fst).Nodup) {t : DateText}
    (h : (f, t) ∈ ts) :
    Object.get? (o.overwritten ts) f = if t.modified then some (.string t.text) else Object.get? o f := by
  induction ts generalizing o with
  | nil => cases h
  | cons p ts ih =>
    rw [List.map_cons, List.nodup_cons] at hn
    cases h with
    | head => exact (get?_overwritten_of_notMem hn.1).trans get?_overwriteIf_self
    | tail _ h =>
      have hne : f ≠ p.1 := fun he => hn.1 (he ▸ List.mem_map_of_mem h)
      refine (ih hn.2 h).trans ?_
      rw [get?_overwriteIf_ne hne]

lemma keys_overwritten {ts : List (String × DateText)}
    (h : ∀ f t, (f, t) ∈ ts → t.modified = true → f ∈ Object.keys o) :
    Object.keys (o.overwritten ts) = Object.keys o := by
  induction ts generalizing o with
  | nil => rfl
  | cons p ts ih =>
    have hp : Object.keys (o.overwriteIf p.2.modified p.1 p.2.text) = Object.keys o :=
      keys_overwriteIf fun hm => h p.1 p.2 (.head _) hm
    exact (ih fun f t ht hm => hp ▸ h f t (.tail _ ht) hm).trans hp

lemma overwritten_of {P : Document → Prop} (hs : ∀ o k s, P o → P (Object.insert o k (.string s))) (h : P o)
    (ts : List (String × DateText)) : P (o.overwritten ts) := by
  induction ts generalizing o with
  | nil => exact h
  | cons p ts ih =>
    refine ih ?_
    rw [Document.overwriteIf]
    split
    · exact hs o p.1 p.2.text h
    · exact h

def Dates.read (d : Dates) : List (String × DateText) :=
  [(Field.created, d.created), (Field.removedDate, d.removed), (Field.archivedDate, d.archived)]

def Dates.chosen (d : Dates) : DateText := ⟨d.lastModified.text, d.lastModified.source != .lastModified⟩

lemma withDates_eq (o : Document) (d : Dates) :
    o.withDates d = o.overwritten ((Field.lastModified, d.chosen) :: d.read) := rfl

lemma withDates_of {P : Document → Prop} (hs : ∀ o k s, P o → P (Object.insert o k (.string s))) (h : P o)
    (d : Dates) : P (o.withDates d) := by
  rw [withDates_eq]
  exact overwritten_of hs h _

variable (o) (d : Dates)

lemma keys_withDates (hl : Field.lastModified ∉ Object.keys o → d.chosen.modified = true)
    (h : ∀ f t, (f, t) ∈ d.read → t.modified = true → f ∈ Object.keys o) :
    Object.keys (o.withDates d) =
      if Field.lastModified ∈ Object.keys o then Object.keys o
      else Object.keys o ++ [Field.lastModified] := by
  have hk := keys_overwriteIf_of_notMem (t := d.chosen.text) hl
  rw [withDates_eq, Document.overwritten, ← hk]
  refine keys_overwritten fun f t ht hm => ?_
  rw [hk]
  split_ifs
  · exact h f t ht hm
  · exact List.mem_append_left _ (h f t ht hm)

lemma get?_withDates_of_notMem (h : k ∉ Field.dates) : Object.get? (o.withDates d) k = Object.get? o k := by
  have hp : (((Field.lastModified, d.chosen) :: d.read).map Prod.fst).Perm Field.dates := .swap _ _ _
  rw [withDates_eq]
  exact get?_overwritten_of_notMem fun hk => h (hp.mem_iff.mp hk)

lemma get?_withDates {t : DateText} (h : (f, t) ∈ (Field.lastModified, d.chosen) :: d.read) :
    Object.get? (o.withDates d) f = if t.modified then some (.string t.text) else Object.get? o f := by
  have hn : (((Field.lastModified, d.chosen) :: d.read).map Prod.fst).Nodup :=
    show [Field.lastModified, Field.created, Field.removedDate, Field.archivedDate].Nodup by decide
  rw [withDates_eq]
  exact get?_overwritten hn h

end Overwriting

section Reading

lemma readDates_eq_ok {o : Document} {d : Dates} (h : o.readDates = .ok d) :
    o.dateText Field.created = .ok d.created ∧ o.dateText Field.removedDate = .ok d.removed ∧
      o.dateText Field.archivedDate = .ok d.archived ∧
      o.lastModified d.created.text = .ok d.lastModified := by
  obtain ⟨c, hc, h⟩ := bind_eq_ok.mp h
  obtain ⟨r, hr, h⟩ := bind_eq_ok.mp h
  obtain ⟨a, ha, h⟩ := bind_eq_ok.mp h
  obtain ⟨l, hl, h⟩ := bind_eq_ok.mp h
  cases h
  exact ⟨hc, hr, ha, hl⟩

lemma dateText_of_mem {o : Document} {d : Dates} (h : o.readDates = .ok d) {f : String} {t : DateText}
    (ht : (f, t) ∈ d.read) : o.dateText f = .ok t := by
  obtain ⟨hc, hr, ha, -⟩ := readDates_eq_ok h
  rcases ht with _ | ⟨_, _ | ⟨_, _ | ⟨_, ⟨⟩⟩⟩⟩
  · exact hc
  · exact hr
  · exact ha

structure Settled (before after : Option Value) : Prop where
  wrapped : ∀ v d, before = some v → v.wrapped? Field.date = some d →
    ∃ t, canonicalDate d = .ok t ∧ after = some (.string t)
  blanked : ∀ v, before = some v → v.wrapped? Field.date = none → v.primitive? = none →
    after = some (.string "")
  kept : (∀ v, before = some v → v.primitive? ≠ none) → after = before

lemma settled_of_dateText {o : Document} {f : String} {t : DateText} (h : o.dateText f = .ok t) :
    Settled (Object.get? o f) (if t.modified then some (.string t.text) else Object.get? o f) := by
  rw [Document.dateText] at h
  cases hs : DateShape.of (Object.get? o f) with
  | absent =>
    rw [hs] at h
    cases h
    rw [DateShape.of_eq_absent] at hs
    rw [hs]
    exact ⟨fun _ _ he => (nomatch he), fun _ he => (nomatch he), fun _ => rfl⟩
  | wrapped d =>
    rw [hs] at h
    obtain ⟨c, hc, rfl⟩ := map_eq_ok.mp h
    obtain ⟨v, hv, hw⟩ := DateShape.of_eq_wrapped.mp hs
    rw [hv]
    refine ⟨?_, ?_, ?_⟩
    · rintro _ e ⟨⟩ he
      cases hw.symm.trans he
      exact ⟨c, hc, rfl⟩
    · rintro _ ⟨⟩ he
      cases hw.symm.trans he
    · intro hp
      obtain ⟨e, he⟩ := Option.ne_none_iff_exists'.mp (hp v rfl)
      cases (DateShape.wrapped?_of_primitive? Field.date he).symm.trans hw
  | plain d =>
    rw [hs] at h
    cases h
    obtain ⟨v, hv, hp⟩ := DateShape.of_eq_plain.mp hs
    rw [hv]
    refine ⟨?_, ?_, fun _ => rfl⟩
    · rintro _ e ⟨⟩ he
      cases (DateShape.wrapped?_of_primitive? Field.date hp).symm.trans he
    · rintro _ ⟨⟩ - he
      cases hp.symm.trans he
  | malformed =>
    rw [hs] at h
    cases h
    obtain ⟨v, hv, hw, hp⟩ := DateShape.of_eq_malformed.mp hs
    rw [hv]
    refine ⟨?_, fun _ _ _ _ => rfl, fun hn => absurd hp (hn v rfl)⟩
    rintro _ e ⟨⟩ he
    cases hw.symm.trans he

lemma modified_mem_keys {o : Document} {f : String} {t : DateText} (h : o.dateText f = .ok t)
    (hm : t.modified = true) : f ∈ Object.keys o := by
  by_contra hn
  rw [Document.dateText, Object.get?_eq_none.mpr hn] at h
  cases h
  cases hm

lemma lastModified_of_notMem {o : Document} {created : String} {l : LastModified}
    (h : o.lastModified created = .ok l) (hn : Field.lastModified ∉ Object.keys o) :
    (l.source != .lastModified) = true := by
  rw [Document.lastModified, Object.get?_eq_none.mpr hn] at h
  cases h
  rw [LastModified.fallback]
  split <;> rfl

end Reading

end DumpImport.Record
