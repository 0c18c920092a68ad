import DumpImport.Proofs.Record.Body
import DumpImport.Proofs.Record.CanonicalDate

namespace DumpImport.Record

open Json

variable {o o' u : Document} {fs gs : List String} {f d : String} {e : Error}

def Document.HoldsDate (o : Document) (f d : String) : Prop :=
  ∃ p, Object.get? o f = some (.object [(Field.date, p)]) ∧ p.primitive? = some d

lemma holdsDate_iff : o.HoldsDate f d ↔ DateShape.of (Object.get? o f) = .wrapped d := by
  rw [DateShape.of_eq_wrapped]
  constructor
  · rintro ⟨p, hp, hd⟩
    exact ⟨_, hp, by rw [Value.wrapped?, if_pos rfl, hd]⟩
  · rintro ⟨v, hv, hw⟩
    unfold Value.wrapped? at hw
    split at hw
    · rename_i l p
      obtain ⟨rfl, hp⟩ := Option.ite_none_right_eq_some.mp hw
      exact ⟨p, hv, hp⟩
    · cases hw

lemma hasWrappedDate_eq_false : o.hasWrappedDate f = false ↔ ∀ d, ¬ o.HoldsDate f d := by
  simp only [holdsDate_iff]
  rw [Document.hasWrappedDate]
  split
  · rename_i hd
    simp [hd]
  · rename_i hn
    simpa using hn

def Document.Readable (o : Document) (fs : List String) : Prop :=
  ∀ f ∈ fs, ∀ d, o.HoldsDate f d → ∃ t, parseDate d = .ok t

structure Flattens (fs : List String) (o o' : Document) : Prop where
  keys : Object.keys o' = Object.keys o
  dates : ∀ f ∈ fs, ∀ d, o.HoldsDate f d → ∃ c, canonicalDate d = .ok c ∧ Object.get? o' f = some (.string c)
  others : ∀ k, (k ∈ fs → ∀ d, ¬ o.HoldsDate k d) → Object.get? o' k = Object.get? o k

lemma flattens_of_flattenDates (h : o.flattenDates fs = ⟨o', none⟩) : Flattens fs o o' := by
  obtain ⟨keys, hne, hc⟩ := flattenDates_spec h
  refine ⟨keys, fun f hf d hd => (hc f hf).string_of_wrapped (holdsDate_iff.mp hd), fun k hk => ?_⟩
  by_cases hm : k ∈ fs
  · exact (hc k hm).eq_of_unwrapped fun d hd => hk hm d (holdsDate_iff.mpr hd)
  · exact hne k hm

namespace Flattens

lemma refl (h : ∀ f ∈ fs, ∀ d, ¬ o.HoldsDate f d) : Flattens fs o o :=
  ⟨rfl, fun f hf d hd => absurd hd (h f hf d), fun _ _ => rfl⟩

lemma not_holdsDate (h : Flattens fs o o') (hf : f ∈ fs) (d : String) : ¬ o'.HoldsDate f d := by
  intro hd
  by_cases hw : ∃ d', o.HoldsDate f d'
  · obtain ⟨d', hw⟩ := hw
    obtain ⟨c, -, hc⟩ := h.dates f hf d' hw
    obtain ⟨p, hp, -⟩ := hd
    rw [hc] at hp
    cases hp
  · rw [Document.HoldsDate, h.others f fun _ => not_exists.mp hw] at hd
    exact hw ⟨d, hd⟩

lemma readable (h : Flattens fs o o') : o.Readable fs := by
  intro f hf d hd
  obtain ⟨c, hc, -⟩ := h.dates f hf d hd
  obtain ⟨t, ht, -⟩ := map_eq_ok.mp hc
  exact ⟨t, ht⟩

lemma functional (hn : (Object.keys o).Nodup) (h : Flattens fs o o') (h' : Flattens gs o u)
    (hm : ∀ f, f ∈ gs ↔ f ∈ fs) : u = o' := by
  refine Object.ext_get? (h.keys ▸ hn) (h'.keys.trans h.keys.symm) fun k => ?_
  by_cases hk : k ∈ fs ∧ ∃ d, o.HoldsDate k d
  · obtain ⟨hk, d, hd⟩ := hk
    obtain ⟨c, hc, hg⟩ := h.dates k hk d hd
    obtain ⟨c', hc', hg'⟩ := h'.dates k ((hm k).mpr hk) d hd
    rw [hg, hg', Except.ok.inj (hc'.symm.trans hc)]
  · have hn : k ∈ fs → ∀ d, ¬ o.HoldsDate k d := fun hf => not_exists.mp fun hd => hk ⟨hf, hd⟩
    rw [h.others k hn, h'.others k fun hg => hn ((hm k).mp hg)]

end Flattens

section Stopping

lemma parseDate_eq_error {s : String} :
    parseDate s = .error e ↔ (∀ t, parseDate s ≠ .ok t) ∧ e = .unparseableDate s := by
  rw [parseDate]
  cases Time.read s <;> simp [eq_comm]

lemma flattenDate_eq_error (h : o.flattenDate f = .error e) :
    ∃ d, o.HoldsDate f d ∧ parseDate d = .error e := by
  rw [Document.flattenDate] at h
  split at h
  · rename_i d hd
    exact ⟨d, holdsDate_iff.mpr hd, map_eq_error.mp (map_eq_error.mp h)⟩
  · cases h

lemma flattenDates_stopped (h : o.flattenDates fs = ⟨o', some e⟩) :
    ∃ before f after, fs = before ++ f :: after ∧ o.flattenDates before = ⟨o', none⟩ ∧
      o'.flattenDate f = .error e := by
  induction fs generalizing o with
  | nil => cases h
  | cons f fs ih =>
    rw [Document.flattenDates] at h
    cases hf : o.flattenDate f with
    | error e' =>
      rw [hf] at h
      cases h
      exact ⟨[], f, fs, rfl, rfl, hf⟩
    | ok u =>
      rw [hf] at h
      obtain ⟨before, g, after, rfl, hb, hg⟩ := ih h
      refine ⟨f :: before, g, after, rfl, ?_, hg⟩
      rw [Document.flattenDates, hf]
      exact hb

inductive Stops (fs : List String) (o o' : Document) (e : Error) : Prop where
  | intro {before after : List String} {f d : String} (split : fs = before ++ f :: after)
      (flattens : Flattens before o o') (date : o.HoldsDate f d) (unreadable : ∀ t, parseDate d ≠ .ok t)
      (error : e = .unparseableDate d) (left : Object.get? o' f = Object.get? o f)

lemma stops_of_flattenDates (h : o.flattenDates fs = ⟨o', some e⟩) : Stops fs o o' e := by
  obtain ⟨before, f, after, rfl, hb, hf⟩ := flattenDates_stopped h
  obtain ⟨d, hd, he⟩ := flattenDate_eq_error hf
  obtain ⟨hn, rfl⟩ := parseDate_eq_error.mp he
  have hflat := flattens_of_flattenDates hb
  have hleft : Object.get? o' f = Object.get? o f :=
    hflat.others f fun hm => absurd hd (hflat.not_holdsDate hm d)
  refine ⟨rfl, hflat, ?_, hn, rfl, hleft⟩
  rw [Document.HoldsDate, ← hleft]
  exact hd

lemma Stops.not_readable (h : Stops fs o o' e) : ¬ o.Readable fs := by
  obtain ⟨rfl, -, hd, hn, -, -⟩ := h
  intro hr
  obtain ⟨t, ht⟩ := hr _ (List.mem_append_right _ List.mem_cons_self) _ hd
  exact hn t ht

lemma flattenDates_error_eq_none : (o.flattenDates fs).error = none ↔ o.Readable fs := by
  rcases hr : o.flattenDates fs with ⟨o', _ | e⟩
  · exact iff_of_true rfl (flattens_of_flattenDates hr).readable
  · exact iff_of_false (fun h => nomatch h) (stops_of_flattenDates hr).not_readable

lemma Document.Readable.exists_flattenDates (h : o.Readable fs) :
    ∃ o', o.flattenDates fs = ⟨o', none⟩ ∧ Flattens fs o o' := by
  have hn := flattenDates_error_eq_none.mpr h
  rcases hr : o.flattenDates fs with ⟨o', e⟩
  rw [hr] at hn
  cases hn
  exact ⟨o', rfl, flattens_of_flattenDates hr⟩

end Stopping

/-- Unwrapping the dates in a list of fields goes through exactly if they can all be read; then
these dates are canonical text, all else is as it was, and neither repeats nor the order in the list
matter. Else it stops at the first date in the list that cannot be read. -/
theorem flattened_or_stopped {o : Document} (hn : (Object.keys o).Nodup) (fs : List String) :
    ((o.flattenDates fs).error = none ↔ o.Readable fs) ∧
    (∀ o', o.flattenDates fs = ⟨o', none⟩ →
      Flattens fs o o' ∧ (∀ f ∈ fs, o'.hasWrappedDate f = false) ∧ o'.flattenDates fs = ⟨o', none⟩ ∧
      ∀ gs, (∀ f, f ∈ gs ↔ f ∈ fs) → o.flattenDates gs = ⟨o', none⟩) ∧
    ∀ o' e, o.flattenDates fs = ⟨o', some e⟩ →
      ∃ before f after d, fs = before ++ f :: after ∧ o.Readable before ∧ o.HoldsDate f d ∧
        (∀ t, parseDate d ≠ .ok t) ∧ e = .unparseableDate d ∧ Flattens before o o' ∧
        Object.get? o' f = Object.get? o f := by
  refine ⟨flattenDates_error_eq_none, fun o' h => ?_, fun o' e h => ?_⟩
  · have hflat := flattens_of_flattenDates h
    refine ⟨hflat, fun f hf => hasWrappedDate_eq_false.mpr (hflat.not_holdsDate hf), ?_, fun gs hm => ?_⟩
    · have hrefl : Flattens fs o' o' := .refl fun f hf => hflat.not_holdsDate hf
      obtain ⟨u, hu, hagain⟩ := hrefl.readable.exists_flattenDates
      rw [hu, hrefl.functional (hflat.keys ▸ hn) hagain fun _ => Iff.rfl]
    · have hr : o.Readable gs := fun f hf => hflat.readable f ((hm f).mp hf)
      obtain ⟨u, hu, hother⟩ := hr.exists_flattenDates
      rw [hu, hflat.functional hn hother hm]
  · obtain ⟨hsplit, hflat, hd, hun, he, hleft⟩ := stops_of_flattenDates h
    exact ⟨_, _, _, _, hsplit, hflat.readable, hd, hun, he, hflat, hleft⟩

def datedDocument (created : Value) : Document :=
  [("createdDateTime", created), ("n", .array [.null]),
    ("_removedDateTime", .object [("$date", .string "yesterday")])]

theorem flattened_or_stopped_repeated :
    let o := datedDocument (.object [("$date", .string "2019-07-04T07:27:35.1+0100")])
    let o' := datedDocument (.string "2019-07-04T06:27:35.100+0000")
    (Object.keys o).Nodup ∧ o.flattenDates ["createdDateTime", "n", "createdDateTime"] = ⟨o', none⟩ ∧
      o.flattenDates ["n", "createdDateTime"] = ⟨o', none⟩ ∧
      o.flattenDates ["createdDateTime", "_removedDateTime", "n"] =
        ⟨o', some (.unparseableDate "yesterday")⟩ ∧
      ∃ before f after, ["createdDateTime", "_removedDateTime", "n"] = before ++ f :: after ∧
        Flattens before o o' ∧
        o.HoldsDate f "yesterday" ∧ Object.get? o' f = Object.get? o f := by
  intro o o'
  have hc : canonicalDate "2019-07-04T07:27:35.1+0100" = .ok "2019-07-04T06:27:35.100+0000" := by
    decide +kernel
  have hy : canonicalDate "yesterday" = .error (.unparseableDate "yesterday") := by decide +kernel
  have hn : (Object.keys o).Nodup := by decide
  have hcreated : o.flattenDate "createdDateTime" = .ok o' := by
    have hd : o.HoldsDate "createdDateTime" "2019-07-04T07:27:35.1+0100" := ⟨_, rfl, rfl⟩
    rw [Document.flattenDate, holdsDate_iff.mp hd]
    simp only [hc]
    rfl
  have hremoved : o'.flattenDate "_removedDateTime" = .error (.unparseableDate "yesterday") := by
    have hd : o'.HoldsDate "_removedDateTime" "yesterday" := ⟨_, rfl, rfl⟩
    rw [Document.flattenDate, holdsDate_iff.mp hd]
    simp only [hy]
    rfl
  have hflat : o.flattenDates ["createdDateTime", "n", "createdDateTime"] = ⟨o', none⟩ := by
    rw [Document.flattenDates, hcreated]
    rfl
  have hstop : o.flattenDates ["createdDateTime", "_removedDateTime", "n"] =
      ⟨o', some (.unparseableDate "yesterday")⟩ := by
    rw [Document.flattenDates, hcreated]
    simp only [Document.flattenDates, hremoved]
  obtain ⟨-, -, -, hsame⟩ := (flattened_or_stopped hn _).2.1 o' hflat
  obtain ⟨before, f, after, d, hsplit, -, hd, -, he, hbefore, hleft⟩ :=
    (flattened_or_stopped hn _).2.2 o' _ hstop
  cases he
  exact ⟨hn, hflat, hsame _ (by simp), hstop, before, f, after, hsplit, hbefore, hd, hleft⟩

end DumpImport.Record
