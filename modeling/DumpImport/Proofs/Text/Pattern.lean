import DumpImport.Text.Pattern
import Mathlib.Data.List.Forall2

namespace DumpImport.Text

def IsRun (p : Char → Bool) (u : List Char) : Prop := u ≠ [] ∧ ∀ c ∈ u, p c = true

inductive Made : List Item → List Char → List (List Char) → Prop where
  | nil : Made [] [] []
  | one {p : Char → Bool} {c : Char} {ps cs us} :
      p c = true → Made ps cs us → Made (.one p :: ps) (c :: cs) us
  | run {p : Char → Bool} {u : List Char} {ps cs us} :
      IsRun p u → Made ps cs us → Made (.run p :: ps) (u ++ cs) (u :: us)

variable {α : Type} {p : Char → Bool} {rest : List Char → Option α} {ps : List Item} {cs : List Char}
  {us : List (List Char)}

lemma IsRun.cons {c : Char} {u : List Char} (hc : p c = true) (hu : ∀ x ∈ u, p x = true) : IsRun p (c :: u) :=
  ⟨List.cons_ne_nil c u, List.forall_mem_cons.mpr ⟨hc, hu⟩⟩

lemma isRun_of_all {u : List Char} (hne : u ≠ []) (h : u.all p = true) : IsRun p u :=
  ⟨hne, List.all_eq_true.mp h⟩

lemma greedy_eq_some {u : List Char} {a : α} (h : greedy p rest cs = some (u, a)) :
    ∃ r, cs = u ++ r ∧ IsRun p u ∧ rest r = some a := by
  induction cs generalizing u a with
  | nil => cases h
  | cons c cs ih =>
    rw [greedy] at h
    split at h
    · rename_i hc
      split at h
      · rename_i v b hv
        cases h
        obtain ⟨r, rfl, hu, hr⟩ := ih hv
        exact ⟨r, rfl, IsRun.cons hc hu.2, hr⟩
      · obtain ⟨b, hb, he⟩ := Option.map_eq_some_iff.mp h
        cases he
        exact ⟨cs, rfl, IsRun.cons hc (fun x hx => absurd hx List.not_mem_nil), hb⟩
    · cases h

lemma greedy_isSome {u r : List Char} (hu : IsRun p u) (hr : (rest r).isSome) :
    (greedy p rest (u ++ r)).isSome := by
  obtain ⟨hne, hall⟩ := hu
  induction u with
  | nil => exact absurd rfl hne
  | cons c u ih =>
    obtain ⟨hc, hall⟩ := List.forall_mem_cons.mp hall
    rw [List.cons_append, greedy, if_pos hc]
    split
    · rfl
    · rename_i hn
      -- Nothing longer lets the rest match, so the run ends here.
      cases u with
      | nil => rwa [Option.isSome_map]
      | cons d u =>
        have := ih (List.cons_ne_nil d u) hall
        rw [hn] at this
        cases this

lemma made_of_matchHere (h : matchHere ps cs = some us) : Made ps cs us := by
  induction ps generalizing cs us with
  | nil =>
    cases cs with
    | nil =>
      cases h
      exact .nil
    | cons c cs => cases h
  | cons q ps ih =>
    cases q with
    | one p =>
      cases cs with
      | nil => cases h
      | cons c cs =>
        rw [matchHere] at h
        split at h
        · rename_i hc
          exact .one hc (ih h)
        · cases h
    | run p =>
      rw [matchHere] at h
      obtain ⟨⟨u, vs⟩, hg, he⟩ := Option.map_eq_some_iff.mp h
      cases he
      obtain ⟨r, rfl, hu, hr⟩ := greedy_eq_some hg
      exact .run hu (ih hr)

lemma Made.isSome (h : Made ps cs us) : (matchHere ps cs).isSome := by
  induction h with
  | nil => rfl
  | one hc _ ih => rwa [matchHere, if_pos hc]
  | run hu _ ih =>
    rw [matchHere, Option.isSome_map]
    exact greedy_isSome hu ih

lemma search_eq_some (h : search ps cs = some us) : ∃ before r, cs = before ++ r ∧ Made ps r us ∧
    ∀ before' r' us', cs = before' ++ r' → Made ps r' us' → before.length ≤ before'.length := by
  induction cs with
  | nil => exact ⟨[], [], rfl, made_of_matchHere h, fun _ _ _ _ _ => Nat.zero_le _⟩
  | cons c cs ih =>
    rw [search] at h
    split at h
    · rename_i vs hm
      cases h
      exact ⟨[], c :: cs, rfl, made_of_matchHere hm, fun _ _ _ _ _ => Nat.zero_le _⟩
    · rename_i hm
      obtain ⟨before, r, rfl, hr, hfirst⟩ := ih h
      refine ⟨c :: before, r, rfl, hr, ?_⟩
      intro before' r' us' he hr'
      cases before' with
      | nil =>
        rw [List.nil_append] at he
        have := hr'.isSome
        rw [← he, hm] at this
        cases this
      | cons d before' => exact Nat.succ_le_succ (hfirst before' r' us' (List.cons.inj he).2 hr')

lemma search_isSome {before r : List Char} (h : Made ps r us) : (search ps (before ++ r)).isSome := by
  induction before with
  | nil =>
    have hm := h.isSome
    cases r with
    | nil => exact hm
    | cons c r =>
      obtain ⟨vs, hvs⟩ := Option.isSome_iff_exists.mp hm
      rw [List.nil_append, search, hvs]
      rfl
  | cons c before ih =>
    rw [List.cons_append, search]
    split
    · rfl
    · exact ih

lemma made_one_iff : Made (.one p :: ps) cs us ↔ ∃ c r, cs = c :: r ∧ p c = true ∧ Made ps r us := by
  constructor
  · rintro (_ | ⟨hc, h⟩)
    exact ⟨_, _, rfl, hc, h⟩
  · rintro ⟨c, r, rfl, hc, h⟩
    exact .one hc h

lemma made_run_iff : Made (.run p :: ps) cs us ↔
    ∃ u r vs, cs = u ++ r ∧ us = u :: vs ∧ IsRun p u ∧ Made ps r vs := by
  constructor
  · rintro (_ | _ | ⟨hu, h⟩)
    exact ⟨_, _, _, rfl, rfl, hu, h⟩
  · rintro ⟨u, r, vs, rfl, rfl, hu, h⟩
    exact .run hu h

lemma made_ones_iff {q : Char → Char → Bool} {ls : List Char} :
    Made (ls.map fun l => .one (q l)) cs us ↔ List.Forall₂ (fun l c => q l c = true) ls cs ∧ us = [] := by
  induction ls generalizing cs with
  | nil =>
    constructor
    · rintro ⟨⟩
      exact ⟨.nil, rfl⟩
    · rintro ⟨⟨⟩, rfl⟩
      exact .nil
  | cons l ls ih =>
    rw [List.map_cons, made_one_iff, List.forall₂_cons_left_iff]
    constructor
    · rintro ⟨c, r, rfl, hc, h⟩
      obtain ⟨hr, hus⟩ := ih.mp h
      exact ⟨⟨c, r, hc, hr, rfl⟩, hus⟩
    · rintro ⟨⟨c, r, hc, hr, rfl⟩, hus⟩
      exact ⟨c, r, rfl, hc, ih.mpr ⟨hr, hus⟩⟩

end DumpImport.Text
