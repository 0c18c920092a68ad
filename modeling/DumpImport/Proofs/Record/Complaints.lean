import DumpImport.Proofs.Record.Body

namespace DumpImport.Record

open Json

section Complaints

variable {α β : Type} {ds es : List String}

def isUnread (s : String) : Bool := (Time.read s).isNone

/-- Fails for the first of these texts that is no date, and for nothing else. -/
def Complains (ds : List String) (x : Except Error α) : Prop :=
  ∀ e, x = .error e ↔ ∃ s, ds.find? isUnread = some s ∧ e = .unparseableDate s

lemma Complains.ok (a : α) : Complains [] (.ok a : Except Error α) := by
  intro e
  simp

lemma Complains.map {x : Except Error α} (h : Complains ds x) (f : α → β) : Complains ds (x.map f) := by
  intro e
  rw [map_eq_error]
  exact h e

lemma Complains.find?_of_ok {x : Except Error α} (h : Complains ds x) {a : α} (ha : x = .ok a) :
    ds.find? isUnread = none := by
  rw [Option.eq_none_iff_forall_ne_some]
  intro s hs
  have he := (h (.unparseableDate s)).mpr ⟨s, hs, rfl⟩
  cases ha.symm.trans he

lemma Complains.exists_ok {x : Except Error α} (h : Complains ds x) (hd : ds.find? isUnread = none) :
    ∃ a, x = .ok a := by
  cases hx : x with
  | ok a => exact ⟨a, rfl⟩
  | error e =>
    obtain ⟨s, hs, -⟩ := (h e).mp hx
    cases hd.symm.trans hs

lemma Complains.bind {x : Except Error α} {f : α → Except Error β} (hx : Complains ds x)
    (hf : ∀ a, x = .ok a → Complains es (f a)) : Complains (ds ++ es) (x >>= f) := by
  intro e
  rw [bind_eq_error, List.find?_append]
  cases hd : x with
  | error e' =>
    obtain ⟨s, hs, -⟩ := (hx e').mp hd
    rw [← hd, hx e, hs]
    simp [hd]
  | ok a =>
    rw [hx.find?_of_ok hd, Option.none_or, ← hf a hd e]
    simp

lemma parseDate_complains (s : String) : Complains [s] (parseDate s) := by
  intro e
  rw [parseDate]
  cases hr : Time.read s with
  | none => simp [isUnread, hr, eq_comm]
  | some t => simp [isUnread, hr]

end Complaints

section Dates

def Document.wrappedDates (o : Document) (fs : List String) : List String :=
  fs.filterMap fun f => (Object.get? o f).bind (·.wrapped? Field.date)

variable (o : Document) (f : String) (fs : List String)

lemma wrappedDates_cons : o.wrappedDates (f :: fs) = o.wrappedDates [f] ++ o.wrappedDates fs :=
  List.filterMap_append (l := [f])

lemma wrappedDates_wrapped {d : String} (h : DateShape.of (Object.get? o f) = .wrapped d) :
    o.wrappedDates [f] = [d] := by
  obtain ⟨v, hv, hw⟩ := DateShape.of_eq_wrapped.mp h
  simp [Document.wrappedDates, hv, hw]

lemma wrappedDates_other (h : ∀ d, DateShape.of (Object.get? o f) ≠ .wrapped d) :
    o.wrappedDates [f] = [] := by
  have hn : ((Object.get? o f).bind (·.wrapped? Field.date)) = none := by
    rw [Option.eq_none_iff_forall_ne_some]
    intro d hd
    obtain ⟨v, hv, hw⟩ := Option.bind_eq_some_iff.mp hd
    exact h d (DateShape.of_eq_wrapped.mpr ⟨v, hv, hw⟩)
  simp [Document.wrappedDates, hn]

lemma dateText_complains : Complains (o.wrappedDates [f]) (o.dateText f) := by
  rw [Document.dateText]
  cases hs : DateShape.of (Object.get? o f) with
  | wrapped d =>
    rw [wrappedDates_wrapped o f hs]
    exact ((parseDate_complains d).map _).map _
  | absent | plain | malformed =>
    rw [wrappedDates_other o f fun d hd => by cases hs.symm.trans hd]
    exact .ok _

lemma lastModified_complains (created : String) :
    Complains (o.wrappedDates [Field.lastModified]) (o.lastModified created) := by
  rw [Document.lastModified, LastModified.of]
  cases hs : DateShape.of (Object.get? o Field.lastModified) with
  | wrapped d =>
    rw [wrappedDates_wrapped o _ hs]
    exact ((parseDate_complains d).map _).map _
  | absent | plain | malformed =>
    rw [wrappedDates_other o _ fun d hd => by cases hs.symm.trans hd]
    exact .ok _

def Field.datesRead : List String :=
  [Field.created, Field.removedDate, Field.archivedDate, Field.lastModified]

lemma readDates_complains : Complains (o.wrappedDates Field.datesRead) o.readDates := by
  have h : Complains (o.wrappedDates [Field.created] ++ (o.wrappedDates [Field.removedDate] ++
      (o.wrappedDates [Field.archivedDate] ++ (o.wrappedDates [Field.lastModified] ++ [])))) o.readDates := by
    refine (dateText_complains o _).bind fun c _ => ?_
    refine (dateText_complains o _).bind fun r _ => ?_
    refine (dateText_complains o _).bind fun a _ => ?_
    exact (lastModified_complains o c.text).bind fun l _ => .ok _
  rw [Field.datesRead, wrappedDates_cons o, wrappedDates_cons o Field.removedDate,
    wrappedDates_cons o Field.archivedDate]
  rwa [List.append_nil] at h

lemma flattenDate_complains : Complains (o.wrappedDates [f]) (o.flattenDate f) := by
  rw [Document.flattenDate]
  cases hs : DateShape.of (Object.get? o f) with
  | wrapped d =>
    rw [wrappedDates_wrapped o f hs]
    exact ((parseDate_complains d).map _).map _
  | absent | plain | malformed =>
    rw [wrappedDates_other o f fun d hd => by cases hs.symm.trans hd]
    exact .ok _

variable {o f fs}

lemma wrappedDates_congr {o' : Document} (h : ∀ k ∈ fs, Object.get? o k = Object.get? o' k) :
    o.wrappedDates fs = o'.wrappedDates fs := by
  apply List.filterMap_congr
  intro k hk
  rw [h k hk]

lemma find?_wrappedDates_congr {o' : Document}
    (h : ∀ k ∈ fs, (o'.wrappedDates [k]).find? isUnread = (o.wrappedDates [k]).find? isUnread) :
    (o'.wrappedDates fs).find? isUnread = (o.wrappedDates fs).find? isUnread := by
  induction fs with
  | nil => rfl
  | cons f fs ih =>
    rw [List.forall_mem_cons] at h
    rw [wrappedDates_cons, wrappedDates_cons o, List.find?_append, List.find?_append, h.1, ih h.2]

lemma flattenDates_error (e : Error) : (o.flattenDates fs).error = some e ↔
    ∃ s, (o.wrappedDates fs).find? isUnread = some s ∧ e = .unparseableDate s := by
  induction fs generalizing o with
  | nil => simp [Document.flattenDates, Document.wrappedDates]
  | cons f fs ih =>
    rw [Document.flattenDates, wrappedDates_cons, List.find?_append]
    have hc := flattenDate_complains o f
    cases hu : o.flattenDate f with
    | error e' =>
      obtain ⟨s, hs, rfl⟩ := (hc e').mp hu
      simp [hs, eq_comm]
    | ok u =>
      obtain ⟨-, hne, hcan⟩ := flattenDate_spec hu
      have hread := hc.find?_of_ok hu
      have hsame : (Document.wrappedDates u fs).find? isUnread = (o.wrappedDates fs).find? isUnread := by
        refine find?_wrappedDates_congr fun k _ => ?_
        by_cases hk : k = f
        · rw [hk, hread, wrappedDates_other u f hcan.not_wrapped]
          rfl
        · have hw : Document.wrappedDates u [k] = o.wrappedDates [k] :=
            wrappedDates_congr fun l hl => by rw [List.mem_singleton.mp hl, hne k hk]
          rw [hw]
      rw [hread, Option.none_or, ← hsame]
      exact ih

end Dates

section Ids

def Id.wrappedDates : Option Value → List String
  | some (.object o) =>
    if (Value.object o).wrapped? Field.oid = none then Document.wrappedDates o Field.dates else []
  | _ => []

lemma Id.ofObject_complains (o : Document) : Complains (o.wrappedDates Field.dates) (ofObject o) := by
  rw [ofObject]
  split_ifs with hd
  · intro e
    rw [← flattenDates_error e]
    rcases o.flattenDates Field.dates with ⟨u, _ | e'⟩ <;> simp
  · have hn : o.wrappedDates Field.dates = [] := by
      rw [Document.wrappedDates, List.filterMap_eq_nil_iff]
      intro f hf
      rw [Option.eq_none_iff_forall_ne_some]
      intro d hd'
      obtain ⟨v, hv, hw⟩ := Option.bind_eq_some_iff.mp hd'
      exact hd (List.any_eq_true.mpr ⟨f, hf, hasWrappedDate_iff.mpr ⟨v, d, hv, hw⟩⟩)
    rw [hn]
    exact .ok _

lemma Id.of_complains (x : Option Value) : Complains (Id.wrappedDates x) (Id.of x) := by
  cases x with
  | none => exact .ok _
  | some v =>
    unfold Id.of
    cases hw : v.wrapped? Field.oid with
    | some s =>
      have hn : Id.wrappedDates (some v) = [] := by
        cases v with
        | object o => simp [Id.wrappedDates, hw]
        | _ => rfl
      simp only [hw, hn]
      exact .ok _
    | none =>
      simp only [hw]
      cases v with
      | object o =>
        simp only [Id.wrappedDates, hw, if_true]
        exact ofObject_complains o
      | null | bool | number | string | array => exact .ok _

end Ids

end DumpImport.Record
