import DumpImport.Proofs.Json.Objects
import DumpImport.Proofs.Outcome
import DumpImport.Record.Deletion
import Mathlib.Data.List.Basic

namespace DumpImport.Record

open Json

section Copies

variable {o i t : Document} {f k : String} {fs : List String}

def Document.copies (fs : List String) (o i : Document) : Document :=
  fs.foldl (fun t f => Document.copy f o t) i

lemma get?_copy : Object.get? (Document.copy f o i) k =
    if k = f then (Object.get? o k).or (Object.get? i k) else Object.get? i k := by
  rw [Document.copy]
  by_cases hk : k = f
  · subst hk
    rw [if_pos rfl]
    cases hg : Object.get? o k with
    | none => rfl
    | some v => exact Object.get?_insert_self i k v
  · rw [if_neg hk]
    cases hg : Object.get? o f with
    | none => rfl
    | some v => exact Object.get?_insert_ne i v hk

lemma keys_copy : Object.keys (Document.copy f o i) =
    Object.keys i ++ if f ∈ Object.keys o ∧ f ∉ Object.keys i then [f] else [] := by
  rw [Document.copy]
  cases hg : Object.get? o f with
  | none => rw [if_neg fun h => Object.get?_eq_none.mp hg h.1, List.append_nil]
  | some v =>
    have ho : f ∈ Object.keys o := Object.mem_keys_of_get? hg
    change Object.keys (Object.insert i f v) = _
    rw [Object.keys_insert]
    by_cases hi : f ∈ Object.keys i <;> simp [ho, hi]

lemma copy_congr {o' : Document} (h : Object.get? o' f = Object.get? o f) :
    Document.copy f o' i = Document.copy f o i := by
  rw [Document.copy, Document.copy, h]

lemma get?_copies : Object.get? (Document.copies fs o i) k =
    if k ∈ fs then (Object.get? o k).or (Object.get? i k) else Object.get? i k := by
  induction fs generalizing i with
  | nil => rfl
  | cons f fs ih =>
    rw [Document.copies, List.foldl_cons, ← Document.copies, ih, get?_copy]
    by_cases hk : k = f
    · subst hk
      by_cases hm : k ∈ fs <;> simp [hm, ← Option.or_assoc]
    · simp [hk]

lemma keys_copies (hn : fs.Nodup) : Object.keys (Document.copies fs o i) =
    Object.keys i ++ fs.filter fun f => f ∈ Object.keys o ∧ f ∉ Object.keys i := by
  induction fs generalizing i with
  | nil => exact (List.append_nil _).symm
  | cons f fs ih =>
    obtain ⟨hf, hn⟩ := List.nodup_cons.mp hn
    -- A field is copied once, so what the first copy adds is no matter to the others.
    have hrest : fs.filter (fun g => g ∈ Object.keys o ∧ g ∉ Object.keys (Document.copy f o i)) =
        fs.filter fun g => g ∈ Object.keys o ∧ g ∉ Object.keys i := by
      apply List.filter_congr
      intro g hg
      have hne : g ≠ f := fun he => hf (he ▸ hg)
      rw [keys_copy]
      by_cases hi : f ∈ Object.keys o ∧ f ∉ Object.keys i <;> simp [hi, hne]
    rw [Document.copies, List.foldl_cons, ← Document.copies, ih hn, hrest, keys_copy, List.append_assoc,
      List.filter_cons]
    by_cases hi : f ∈ Object.keys o ∧ f ∉ Object.keys i <;> simp [hi]

lemma copies_congr {o' : Document} (h : ∀ f ∈ fs, Object.get? o' f = Object.get? o f) :
    Document.copies fs o' i = Document.copies fs o i := by
  induction fs generalizing i with
  | nil => rfl
  | cons f fs ih =>
    rw [List.forall_mem_cons] at h
    rw [Document.copies, List.foldl_cons, copy_congr h.1]
    exact ih h.2

end Copies

namespace Deletion

def carried (d : Deletion) : List String := [Field.lastModified, d.dateField, Field.timestamp]

structure Delivers (d : Deletion) (outer inner after : Document) : Prop where
  type : Object.get? after Field.type = some (.string "MONGO_DELETE")
  carried : ∀ f ∈ d.carried, Object.get? after f = (Object.get? outer f).or (Object.get? inner f)
  others : ∀ f, f ∉ Field.type :: d.carried → Object.get? after f = Object.get? inner f
  keys : Object.keys after = Object.keys inner ++
    (d.carried.filter fun f => f ∈ Object.keys outer ∧ f ∉ Object.keys inner) ++
    if Field.type ∈ Object.keys inner then [] else [Field.type]

variable (d : Deletion) {o o' i : Document}

lemma nodup_carried : d.carried.Nodup := by
  cases d <;> decide

lemma type_notMem_carried : Field.type ∉ d.carried := by
  cases d <;> decide

lemma event_eq :
    d.event o i = Object.insert (Document.copies d.carried o i) Field.type (.string deleteType) := rfl

lemma event_delivers (o i : Document) : d.Delivers o i (d.event o i) := by
  have ht := d.type_notMem_carried
  rw [event_eq]
  refine ⟨Object.get?_insert_self _ _ _, fun f hf => ?_, fun f hf => ?_, ?_⟩
  · have hne : f ≠ Field.type := fun he => ht (he ▸ hf)
    rw [Object.get?_insert_ne _ _ hne, get?_copies, if_pos hf]
  · rw [List.mem_cons, not_or] at hf
    rw [Object.get?_insert_ne _ _ hf.1, get?_copies, if_neg hf.2]
  · rw [Object.keys_insert, keys_copies d.nodup_carried]
    by_cases hi : Field.type ∈ Object.keys i <;> simp [ht, hi]

lemma event_congr (h : ∀ f ∈ d.carried, Object.get? o' f = Object.get? o f) : d.event o' i = d.event o i := by
  rw [event_eq, event_eq, copies_congr h]

lemma unwrap_absent (h : Object.get? o d.wrapper = none) : d.unwrap o = .ok (o, false) := by
  simp only [unwrap, h]

lemma unwrap_object (h : Object.get? o d.wrapper = some (.object i)) :
    d.unwrap o = .ok (d.event o i, true) := by
  simp only [unwrap, h]

variable {d} in
lemma unwrap_eq_error {e : Error} : d.unwrap o = .error e ↔
    (∃ v, Object.get? o d.wrapper = some v ∧ ∀ i, v ≠ .object i) ∧
    e = .invalid (.wrapperNotObject d.wrapper) := by
  rw [unwrap]
  cases Object.get? o d.wrapper with
  | none => simp
  | some v => cases v <;> simp [eq_comm]

lemma unwrap_congr (h : ∀ f ∈ d.wrapper :: d.carried, Object.get? o' f = Object.get? o f)
    (hw : Object.get? o d.wrapper ≠ none) : d.unwrap o' = d.unwrap o := by
  rw [List.forall_mem_cons] at h
  obtain ⟨v, hv⟩ := Option.ne_none_iff_exists'.mp hw
  have hv' := h.1.trans hv
  by_cases hi : ∃ i, v = .object i
  · obtain ⟨i, rfl⟩ := hi
    rw [d.unwrap_object hv, d.unwrap_object hv', d.event_congr h.2]
  · rw [not_exists] at hi
    rw [unwrap_eq_error.mpr ⟨⟨v, hv, hi⟩, rfl⟩, unwrap_eq_error.mpr ⟨⟨v, hv', hi⟩, rfl⟩]

lemma unwrap_eq_ok {u : Document × Bool} (h : d.unwrap o = .ok u) :
    Object.get? o d.wrapper = none ∧ u = (o, false) ∨
      ∃ i, Object.get? o d.wrapper = some (.object i) ∧ u = (d.event o i, true) := by
  cases hg : Object.get? o d.wrapper with
  | none =>
    rw [d.unwrap_absent hg] at h
    exact .inl ⟨rfl, (Except.ok.inj h).symm⟩
  | some v =>
    by_cases hi : ∃ i, v = .object i
    · obtain ⟨i, rfl⟩ := hi
      rw [d.unwrap_object hg] at h
      exact .inr ⟨i, rfl, (Except.ok.inj h).symm⟩
    · cases (unwrap_eq_error.mpr ⟨⟨v, hg, not_exists.mp hi⟩, rfl⟩).symm.trans h

lemma type_of_unwrap {r : Document} (h : d.unwrap o = .ok (r, true)) :
    Object.get? r Field.type = some (.string "MONGO_DELETE") := by
  rcases d.unwrap_eq_ok h with ⟨-, he⟩ | ⟨i, -, he⟩
  · cases he
  · cases he
    exact (d.event_delivers o i).type

lemma eq_of_unwrap {r : Document} (h : d.unwrap o = .ok (r, false)) : r = o := by
  rcases d.unwrap_eq_ok h with ⟨-, he⟩ | ⟨i, -, he⟩
  · cases he
    rfl
  · cases he

end Deletion

section Both

variable {o o' : Document} {u : Unwrapped}

lemma unwrap_eq_ok_iff : o.unwrap = .ok u ↔
    ∃ o₁, Deletion.removed.unwrap o = .ok (o₁, u.removed) ∧
      Deletion.archived.unwrap o₁ = .ok (u.document, u.archived) := by
  constructor
  · intro h
    obtain ⟨⟨o₁, x⟩, hr, h⟩ := bind_eq_ok.mp h
    obtain ⟨⟨o₂, y⟩, ha, h⟩ := bind_eq_ok.mp h
    cases h
    exact ⟨o₁, hr, ha⟩
  · rintro ⟨o₁, hr, ha⟩
    exact bind_eq_ok.mpr ⟨_, hr, bind_eq_ok.mpr ⟨_, ha, rfl⟩⟩

lemma unwrap_eq_error_iff {e : Error} : o.unwrap = .error e ↔
    Deletion.removed.unwrap o = .error e ∨
      ∃ u, Deletion.removed.unwrap o = .ok u ∧ Deletion.archived.unwrap u.1 = .error e := by
  have hlast : ∀ {v : Document × Bool} {w : Document × Bool → Unwrapped},
      (Deletion.archived.unwrap v.1 >>= fun x => .ok (w x)) = .error e ↔
        Deletion.archived.unwrap v.1 = .error e :=
    fun {v w} => bind_eq_error.trans (or_iff_left fun ⟨_, _, h⟩ => nomatch h)
  exact bind_eq_error.trans (or_congr_right (exists_congr fun v => and_congr_right fun _ => hlast))

lemma type_of_unwrapped (h : o.unwrap = .ok u) (hu : u.removed = true ∨ u.archived = true) :
    Object.get? u.document Field.type = some (.string "MONGO_DELETE") := by
  obtain ⟨o₁, hr, ha⟩ := unwrap_eq_ok_iff.mp h
  cases hf : u.archived with
  | true =>
    rw [hf] at ha
    exact Deletion.archived.type_of_unwrap ha
  | false =>
    rw [hf] at ha hu
    rw [hu.resolve_right Bool.false_ne_true] at hr
    rw [Deletion.archived.eq_of_unwrap ha]
    exact Deletion.removed.type_of_unwrap hr

end Both

/-- What comes of a document in its wrappers, and where each field of it is from. -/
theorem deletions_unwrapped (o : Document) :
    (∀ d : Deletion,
      (Object.get? o d.wrapper = none → d.unwrap o = .ok (o, false)) ∧
      (∀ v, Object.get? o d.wrapper = some v → (∀ i, v ≠ .object i) →
        d.unwrap o = .error (.invalid (.wrapperNotObject d.wrapper))) ∧
      ∀ i, Object.get? o d.wrapper = some (.object i) → ∃ r, d.unwrap o = .ok (r, true) ∧ d.Delivers o i r) ∧
    (∀ u, o.unwrap = .ok u ↔ ∃ o₁, Deletion.removed.unwrap o = .ok (o₁, u.removed) ∧
      Deletion.archived.unwrap o₁ = .ok (u.document, u.archived)) ∧
    (∀ e, o.unwrap = .error e ↔ Deletion.removed.unwrap o = .error e ∨
      ∃ u, Deletion.removed.unwrap o = .ok u ∧ Deletion.archived.unwrap u.1 = .error e) ∧
    (∀ u, o.unwrap = .ok u →
      (u.removed = true ∨ u.archived = true →
        Object.get? u.document Field.type = some (.string "MONGO_DELETE")) ∧
      (u.removed = false → u.archived = false → u.document = o)) ∧
    (Object.get? o Field.removed ≠ none → ∀ o' : Document,
      (∀ k, k ≠ Field.archived → Object.get? o' k = Object.get? o k) → o'.unwrap = o.unwrap) := by
  refine ⟨fun d =>
    ⟨d.unwrap_absent, fun v hv hn => Deletion.unwrap_eq_error.mpr ⟨⟨v, hv, hn⟩, rfl⟩, fun i hi => ?_⟩,
    fun u => unwrap_eq_ok_iff, fun e => unwrap_eq_error_iff,
    fun u hu => ⟨type_of_unwrapped hu, fun hr ha => ?_⟩, fun hr o' ho' => ?_⟩
  · exact ⟨_, d.unwrap_object hi, d.event_delivers o i⟩
  · obtain ⟨o₁, hr', ha'⟩ := unwrap_eq_ok_iff.mp hu
    rw [hr] at hr'
    rw [ha] at ha'
    rw [Deletion.archived.eq_of_unwrap ha', Deletion.removed.eq_of_unwrap hr']
  · rw [Document.unwrap, Document.unwrap, Deletion.removed.unwrap_congr (fun f hf => ho' f ?_) hr]
    rintro rfl
    exact absurd hf (by decide)

def Document.bothDeleted : Document := [
  ("_removed", .object [
    ("_id", .string "inner"),
    ("timestamp", .string "1"),
    ("_archived", .object [("_id", .string "innermost"), ("@type", .null)])]),
  ("_archived", .object [("_id", .string "outer")]),
  ("_archivedDateTime", .string "2020"),
  ("timestamp", .string "2")]

theorem deletions_unwrapped_nested :
    Document.bothDeleted.unwrap = .ok ⟨[
      ("_id", .string "innermost"),
      ("@type", .string "MONGO_DELETE"),
      ("timestamp", .string "2")], true, true⟩ ∧
    Document.unwrap (Object.insert Document.bothDeleted Field.archived .null) = Document.bothDeleted.unwrap ∧
    Deletion.removed.unwrap [("_removed", .null)] = .error (.invalid (.wrapperNotObject "_removed")) := by
  have hboth : Object.get? Document.bothDeleted Field.removed ≠ none := by
    simp [Document.bothDeleted, Field.removed, Object.get?]
  have hsame := (deletions_unwrapped .bothDeleted).2.2.2.2 hboth
    (Object.insert Document.bothDeleted Field.archived .null) fun k hk => Object.get?_insert_ne _ _ hk
  have hnull := ((deletions_unwrapped [("_removed", .null)]).1 .removed).2.1 .null rfl (by rintro i ⟨⟩)
  exact ⟨rfl, hsame, hnull⟩

end DumpImport.Record
