import DumpImport.Proofs.Json.RoundTrip
import DumpImport.Time.Reader

/-! Every date has the mark between day and hour, so no number is one. -/

namespace DumpImport.Time

open Text

def Reader.Shortens {α : Type} (read : Reader α) : Prop := ∀ ⦃cs a r⦄, read cs = some (a, r) → r <:+ cs

lemma mark_shortens (c : Char) : (mark c).Shortens := by
  intro cs a r h
  cases cs with
  | nil => cases h
  | cons d ds =>
    rw [mark] at h
    split_ifs at h
    cases h
    exact List.suffix_cons d _

lemma mark_cons {c : Char} {cs r : List Char} (h : mark c cs = some ((), r)) : cs = c :: r := by
  cases cs with
  | nil => cases h
  | cons d ds =>
    rw [mark] at h
    split_ifs at h with hd
    cases h
    rw [hd]

lemma digits_shortens (bound : Option Nat) : (digits bound).Shortens := by
  intro cs a r h
  cases bound <;>
  · simp only [digits] at h
    split_ifs at h
    cases h
    exact List.drop_suffix _ _

lemma numeral_shortens (bound : Option Nat) : (numeral bound).Shortens := by
  intro cs a r h
  obtain ⟨⟨ds, t⟩, hd, he⟩ := Option.map_eq_some_iff.mp h
  cases he
  exact digits_shortens bound hd

lemma numeralIn_shortens (lo hi : Nat) : (numeralIn lo hi).Shortens := by
  intro cs a r h
  obtain ⟨⟨n, t⟩, hn, he⟩ := Option.bind_eq_some_iff.mp h
  simp only at he
  split_ifs at he
  cases he
  exact (numeral_shortens _ hn).trans (List.dropWhile_suffix _)

lemma year_shortens : year.Shortens := by
  intro cs a r h
  have hb : dropBlank cs <:+ cs := List.dropWhile_suffix _
  rw [year] at h
  split at h
  · rename_i t ht
    obtain ⟨⟨n, u⟩, hn, he⟩ := Option.map_eq_some_iff.mp h
    cases he
    exact (numeral_shortens _ hn).trans ((List.suffix_cons _ t).trans (ht ▸ hb))
  · rename_i t ht
    obtain ⟨⟨n, u⟩, hn, he⟩ := Option.map_eq_some_iff.mp h
    cases he
    exact (numeral_shortens _ hn).trans ((List.suffix_cons _ t).trans (ht ▸ hb))
  · obtain ⟨⟨n, u⟩, hn, he⟩ := Option.map_eq_some_iff.mp h
    cases he
    exact (numeral_shortens _ hn).trans hb

lemma moment_mark {cs r : List Char} {t : Instant} (h : moment cs = some (t, r)) : 'T' ∈ cs := by
  rw [moment] at h
  obtain ⟨⟨y, c₁⟩, h₁, h⟩ := Option.bind_eq_some_iff.mp h
  obtain ⟨⟨_, c₂⟩, h₂, h⟩ := Option.bind_eq_some_iff.mp h
  obtain ⟨⟨m, c₃⟩, h₃, h⟩ := Option.bind_eq_some_iff.mp h
  obtain ⟨⟨_, c₄⟩, h₄, h⟩ := Option.bind_eq_some_iff.mp h
  obtain ⟨⟨d, c₅⟩, h₅, h⟩ := Option.bind_eq_some_iff.mp h
  obtain ⟨⟨_, c₆⟩, h₆, -⟩ := Option.bind_eq_some_iff.mp h
  have hs : c₅ <:+ cs := (numeralIn_shortens _ _ h₅).trans <| (mark_shortens _ h₄).trans <|
    (numeralIn_shortens _ _ h₃).trans <| (mark_shortens _ h₂).trans (year_shortens h₁)
  exact hs.mem (mark_cons h₆ ▸ List.mem_cons_self)

lemma read_mark {s : String} {t : Instant} (h : read s = some t) : 'T' ∈ s.toList := by
  obtain ⟨⟨m, r⟩, hm, -⟩ := Option.bind_eq_some_iff.mp h
  exact moment_mark hm

lemma mark_notMem_numeral {t : List Char} (h : IsNumeral t) : 'T' ∉ t := by
  have hd {ds : List Char} (hds : IsDigits ds) : 'T' ∉ ds := fun hm => by
    have := hds.2 _ hm
    revert this
    decide
  obtain ⟨w, f, x, rfl, hw, hf, hx⟩ := h
  simp only [List.mem_append, not_or]
  refine ⟨hd hw, ?_, ?_⟩
  · rcases hf with rfl | ⟨ds, hds, rfl⟩
    · exact List.not_mem_nil
    · simpa using hd hds
  · rcases hx with rfl | ⟨s, ds, hs, hds, rfl⟩
    · exact List.not_mem_nil
    · rcases hs with rfl | rfl <;> simpa using hd hds

theorem read_number (n : Json.Number) : read n.text = none := by
  cases h : read n.text with
  | none => rfl
  | some t =>
    have hm := read_mark h
    obtain ⟨negative, d, hr, hd, -⟩ := n.render_eq
    rw [Json.Number.text, String.toList_ofList, hr] at hm
    have hn := mark_notMem_numeral hd
    cases negative <;> simp [hn] at hm

theorem read_bool (b : Bool) : read (if b then "true" else "false") = none := by
  cases h : read (if b then "true" else "false") with
  | none => rfl
  | some t =>
    have hm := read_mark h
    cases b <;> simp at hm

end DumpImport.Time
