import DumpImport.Json.Value
import Mathlib.Tactic.Common

namespace DumpImport.Json.Object

def keys (o : Object) : List String := o.map Prod.fst

@[simp] lemma keys_nil : keys [] = [] := rfl

@[simp] lemma keys_cons (m : String × Value) (o : Object) : keys (m :: o) = m.1 :: keys o := rfl

lemma get?_eq_none {o : Object} {k : String} : o.get? k = none ↔ k ∉ o.keys := by
  induction o with
  | nil => simp [get?]
  | cons m o ih =>
    obtain ⟨l, w⟩ := m
    rw [get?_cons, keys_cons, List.mem_cons, not_or, ← ih]
    by_cases h : k = l <;> simp [h]

lemma mem_of_get? {o : Object} {k : String} {v : Value} (h : o.get? k = some v) : (k, v) ∈ o := by
  induction o with
  | nil => cases h
  | cons m o ih =>
    obtain ⟨l, w⟩ := m
    rw [get?_cons] at h
    split_ifs at h with hk
    · cases h
      rw [hk]
      exact List.mem_cons_self
    · exact List.mem_cons_of_mem _ (ih h)

lemma mem_keys_of_get? {o : Object} {k : String} {v : Value} (h : o.get? k = some v) : k ∈ o.keys :=
  List.mem_map_of_mem (mem_of_get? h)

lemma ext_get? {o p : Object} (hn : o.keys.Nodup) (hk : p.keys = o.keys)
    (hg : ∀ k, p.get? k = o.get? k) : p = o := by
  induction o generalizing p with
  | nil => exact List.map_eq_nil_iff.mp hk
  | cons m o ih =>
    cases p with
    | nil => cases hk
    | cons n p =>
      obtain ⟨l, v⟩ := m
      obtain ⟨j, w⟩ := n
      obtain ⟨rfl, hkeys⟩ : j = l ∧ keys p = keys o := List.cons.inj hk
      obtain ⟨hj, hrest⟩ := List.nodup_cons.mp hn
      have hw := hg j
      rw [get?_cons, get?_cons, if_pos rfl, if_pos rfl] at hw
      rw [Option.some.inj hw, ih hrest hkeys fun k => ?_]
      by_cases hkj : k = j
      · rw [hkj, get?_eq_none.mpr hj, get?_eq_none.mpr (hkeys ▸ hj)]
      · have hr := hg k
        rwa [get?_cons, get?_cons, if_neg hkj, if_neg hkj] at hr

lemma keys_insert (o : Object) (k : String) (v : Value) :
    (o.insert k v).keys = if k ∈ o.keys then o.keys else o.keys ++ [k] := by
  induction o with
  | nil => rfl
  | cons m o ih =>
    obtain ⟨l, w⟩ := m
    by_cases h : l = k
    · simp [insert, h]
    · rw [insert, if_neg h, keys_cons, keys_cons, ih]
      by_cases hm : k ∈ keys o <;> simp [hm, Ne.symm h]

lemma nodup_insert {o : Object} (h : o.keys.Nodup) (k : String) (v : Value) :
    (o.insert k v).keys.Nodup := by
  rw [keys_insert]
  split_ifs with hk
  · exact h
  · exact List.nodup_append.mpr ⟨h, by simp, by
      rintro a ha b hb rfl
      exact hk (List.mem_singleton.mp hb ▸ ha)⟩

lemma mem_insert {o : Object} {k : String} {v : Value} {m : String × Value} (h : m ∈ o.insert k v) :
    m = (k, v) ∨ m ∈ o := by
  induction o with
  | nil => exact .inl (List.mem_singleton.mp h)
  | cons n o ih =>
    obtain ⟨l, w⟩ := n
    rw [insert] at h
    split_ifs at h with hl
    · rcases List.mem_cons.mp h with rfl | h
      · exact .inl (by rw [hl])
      · exact .inr (List.mem_cons_of_mem _ h)
    · rcases List.mem_cons.mp h with rfl | h
      · exact .inr List.mem_cons_self
      · exact (ih h).imp_right (List.mem_cons_of_mem _)

def All (P : Value → Prop) (o : Object) : Prop := ∀ m ∈ o, P m.2

lemma All.get? {P : Value → Prop} {o : Object} (h : o.All P) {k : String} {v : Value}
    (hg : o.get? k = some v) : P v :=
  h (k, v) (mem_of_get? hg)

lemma All.insert {P : Value → Prop} {o : Object} (h : o.All P) {v : Value} (hv : P v) (k : String) :
    (o.insert k v).All P := by
  intro m hm
  rcases mem_insert hm with rfl | hm
  · exact hv
  · exact h m hm

lemma all_insert_iff {P : Value → Prop} {o : Object} {k : String} {v w : Value}
    (hg : o.get? k = some w) (hw : P w) (hv : P v) : (o.insert k v).All P ↔ o.All P := by
  refine ⟨fun h => ?_, fun h => h.insert hv k⟩
  induction o with
  | nil => cases hg
  | cons m o ih =>
    obtain ⟨l, u⟩ := m
    rw [get?_cons] at hg
    rw [Object.insert] at h
    by_cases hl : l = k
    · rw [if_pos hl.symm] at hg
      rw [if_pos hl] at h
      cases hg
      exact List.forall_mem_cons.mpr ⟨hw, (List.forall_mem_cons.mp h).2⟩
    · rw [if_neg (Ne.symm hl)] at hg
      rw [if_neg hl] at h
      obtain ⟨hu, h⟩ := List.forall_mem_cons.mp h
      exact List.forall_mem_cons.mpr ⟨hu, ih hg h⟩

lemma insert_of_notMem {o : Object} {k : String} (h : k ∉ o.keys) (v : Value) :
    o.insert k v = o ++ [(k, v)] := by
  induction o with
  | nil => rfl
  | cons m o ih =>
    obtain ⟨l, w⟩ := m
    rw [keys_cons, List.mem_cons, not_or] at h
    rw [insert, if_neg (Ne.symm h.1), ih h.2, List.cons_append]

lemma foldl_insert_nodup (ms : List (String × Value)) {o : Object} (h : o.keys.Nodup) :
    (keys (ms.foldl (fun o m => o.insert m.1 m.2) o)).Nodup := by
  induction ms generalizing o with
  | nil => exact h
  | cons m ms ih => exact ih (nodup_insert h m.1 m.2)

lemma nodup_ofMembers (ms : List (String × Value)) : (ofMembers ms).keys.Nodup :=
  foldl_insert_nodup ms List.nodup_nil

lemma foldl_insert_mem {ms : List (String × Value)} {o : Object} {m : String × Value}
    (h : m ∈ ms.foldl (fun o m => o.insert m.1 m.2) o) : m ∈ o ∨ m ∈ ms := by
  induction ms generalizing o with
  | nil => exact .inl h
  | cons n ms ih =>
    rcases ih h with h | h
    · rcases mem_insert h with rfl | h
      · exact .inr List.mem_cons_self
      · exact .inl h
    · exact .inr (List.mem_cons_of_mem _ h)

lemma mem_ofMembers {ms : List (String × Value)} {m : String × Value} (h : m ∈ ofMembers ms) : m ∈ ms :=
  (foldl_insert_mem h).resolve_left List.not_mem_nil

lemma foldl_insert_of_nodup {ms : List (String × Value)} {o : Object} (h : (keys (o ++ ms)).Nodup) :
    ms.foldl (fun o m => o.insert m.1 m.2) o = o ++ ms := by
  induction ms generalizing o with
  | nil => simp
  | cons m ms ih =>
    have hm : m.1 ∉ o.keys := by
      simp only [keys, List.map_append, List.map_cons] at h
      exact fun ho => (List.nodup_append.mp h).2.2 _ ho _ List.mem_cons_self rfl
    rw [List.foldl_cons, insert_of_notMem hm, ih (by simpa using h)]
    simp

lemma ofMembers_of_nodup {ms : Object} (h : ms.keys.Nodup) : ofMembers ms = ms :=
  foldl_insert_of_nodup h

end DumpImport.Json.Object
