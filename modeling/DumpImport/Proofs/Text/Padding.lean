import DumpImport.Text.Blank
import Mathlib.Data.List.TakeWhile

namespace DumpImport.Text

def Padded (s x : String) : Prop :=
  ∃ ws ws', (∀ c ∈ ws, isBlank c = true) ∧ (∀ c ∈ ws', isBlank c = true) ∧ x.toList = ws ++ s.toList ++ ws'

def Closed (s : String) : Prop := ∃ u c, s.toList = u ++ [c] ∧ isBlank c = false

lemma dropBlank_append_cons {c : Char} (hc : isBlank c = false) (u v : List Char) :
    dropBlank (u ++ c :: v) = dropBlank u ++ c :: v := by
  rw [dropBlank, dropBlank, List.dropWhile_append]
  split_ifs with he
  · rw [List.isEmpty_iff.mp he, List.dropWhile_cons_of_neg (by simp [hc]), List.nil_append]
  · rfl

section Tails

variable (p : Char → Bool)

lemma dropTail_last {c : Char} (hc : p c = false) (u : List Char) : dropTail p (u ++ [c]) = u ++ [c] := by
  simp [dropTail, hc]

lemma exists_dropTail_append (cs : List Char) : ∃ ws, (∀ c ∈ ws, p c = true) ∧ cs = dropTail p cs ++ ws := by
  refine ⟨(cs.reverse.takeWhile p).reverse, fun c hc => ?_, ?_⟩
  · exact List.mem_takeWhile_imp (List.mem_reverse.mp hc)
  · rw [dropTail, ← List.reverse_append, List.takeWhile_append_dropWhile, List.reverse_reverse]

variable {p}

lemma not_of_mem_getLast?_dropTail {cs : List Char} {c : Char} (h : c ∈ (dropTail p cs).getLast?) :
    p c = false := by
  rw [dropTail, List.getLast?_reverse] at h
  have hn := List.head?_dropWhile_not p cs.reverse
  rw [Option.mem_def.mp h] at hn
  exact hn

end Tails

lemma trim_padded {s x : String} (h : Padded s x) (hs : Closed s) :
    trim x = String.ofList (dropBlank s.toList) := by
  obtain ⟨ws, ws', hws, hws', hx⟩ := h
  obtain ⟨u, c, hu, hc⟩ := hs
  rw [trim, hx, hu, trimmed, List.append_assoc, dropBlank_blank_append hws,
    List.append_assoc, List.singleton_append, dropBlank_append_cons hc, dropBlank_append_cons hc,
    ← List.singleton_append (l := ws'),
    ← List.append_assoc, dropTail_append _ _ hws', dropTail_last isBlank hc]

lemma Closed.trim_ne {s : String} (h : Closed s) : trim s ≠ "" := by
  rw [trim_padded ⟨[], [], by simp, by simp, by simp⟩ h]
  obtain ⟨u, c, hu, hc⟩ := h
  rw [hu, dropBlank_append_cons hc]
  simp

end DumpImport.Text
