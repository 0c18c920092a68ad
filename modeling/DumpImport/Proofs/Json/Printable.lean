import DumpImport.Proofs.Json.RoundTrip

namespace DumpImport.Json

open Text Text.Utf8

def Printable (cs : List Char) : Prop := ∀ c ∈ cs, 0x20 ≤ c.toNat

section Characters

variable {c : Char} {cs ds : List Char}

lemma printable_nil : Printable [] := List.forall_mem_nil _

lemma printable_cons : Printable (c :: cs) ↔ 0x20 ≤ c.toNat ∧ Printable cs := List.forall_mem_cons

lemma printable_append : Printable (cs ++ ds) ↔ Printable cs ∧ Printable ds := List.forall_mem_append

lemma printable_digits (h : ∀ d ∈ ds, d.isDigit = true) : Printable ds :=
  fun d hd => Nat.le_trans (by decide) (isDigit_bounds (h d hd)).1

lemma printable_lowerDigit : ∀ n < 16, 0x20 ≤ (Hex.lowerDigit n).toNat := by decide

lemma printable_hex (b : UInt8) : Printable (Hex.lower b) := by
  have hb := b.toNat_lt
  simp only [Hex.lower, printable_cons]
  exact ⟨printable_lowerDigit _ (by omega), printable_lowerDigit _ (by omega), printable_nil⟩

lemma printable_escapeChar (c : Char) : Printable (escapeChar c) := by
  have hpair (d : Char) (hd : 0x20 ≤ d.toNat) : Printable ['\\', d] :=
    printable_cons.mpr ⟨by decide, printable_cons.mpr ⟨hd, printable_nil⟩⟩
  rw [escapeChar]
  split_ifs
  any_goals exact hpair _ (by decide)
  · simp only [printable_cons]
    exact ⟨by decide, by decide, by decide, by decide, printable_hex _⟩
  · exact printable_cons.mpr ⟨by omega, printable_nil⟩

lemma printable_renderString (s : String) : Printable (renderString s) := by
  rw [renderString, List.cons_append, printable_cons, printable_append]
  refine ⟨by decide, ?_, by simp [Printable]⟩
  intro d hd
  obtain ⟨c, -, hc⟩ := List.mem_flatMap.mp hd
  exact printable_escapeChar c d hc

lemma printable_numeral (h : IsNumeral cs) : Printable cs := by
  obtain ⟨w, f, x, rfl, hw, hf, hx⟩ := h
  rw [printable_append, printable_append]
  refine ⟨printable_digits hw.2, ?_, ?_⟩
  · rcases hf with rfl | ⟨ds, hds, rfl⟩
    · exact printable_nil
    · exact printable_cons.mpr ⟨by decide, printable_digits hds.2⟩
  · rcases hx with rfl | ⟨s, ds, hs, hds, rfl⟩
    · exact printable_nil
    · have hsign : 0x20 ≤ s.toNat := by rcases hs with rfl | rfl <;> decide
      exact printable_cons.mpr ⟨by decide, printable_cons.mpr ⟨hsign, printable_digits hds.2⟩⟩

lemma le_of_mem_encode (h : Printable cs) : ∀ b ∈ encode cs, 0x20 ≤ b.toNat := by
  intro b hb
  obtain ⟨c, hc, hb⟩ := List.mem_flatMap.mp hb
  have hle := h c hc
  by_cases ha : c.toNat < 0x80
  · rw [utf8EncodeChar_ascii ha, List.mem_singleton] at hb
    rw [hb, UInt8.toNat_ofNat']
    omega
  · have := le_of_mem_utf8EncodeChar (by omega) hb
    omega

end Characters

lemma printable_joined {A : Type} {text : A → List Char} {as : List A} (h : ∀ a ∈ as, Printable (text a)) :
    Printable (joined text as) := by
  cases as with
  | nil => exact printable_nil
  | cons a as =>
    obtain ⟨ha, has⟩ := List.forall_mem_cons.mp h
    refine printable_append.mpr ⟨ha, ?_⟩
    intro c hc
    obtain ⟨b, hb, hc⟩ := List.mem_flatMap.mp hc
    exact printable_cons.mpr ⟨by decide, has b hb⟩ c hc

theorem Value.printable_render (v : Value) : Printable v.render := by
  induction v using Value.induct with
  | null => simp [render, Printable]
  | bool b => cases b <;> simp [render, Printable]
  | number n =>
    obtain ⟨negative, t, hr, ht, -⟩ := n.render_eq
    rw [render, hr]
    cases negative with
    | true => exact printable_cons.mpr ⟨by decide, printable_numeral ht⟩
    | false => exact printable_numeral ht
  | string s => exact printable_renderString s
  | array vs ih =>
    rw [render, renderItems_eq, List.cons_append, printable_cons, printable_append]
    exact ⟨by decide, printable_joined ih, by simp [Printable]⟩
  | object ms ih =>
    rw [render, renderMembers_eq, List.cons_append, printable_cons, printable_append]
    refine ⟨by decide, printable_joined ?_, by simp [Printable]⟩
    intro m hm
    rw [memberText, printable_append, printable_cons]
    exact ⟨printable_renderString m.1, by decide, ih m hm⟩

lemma lineFeed_notMem_compact (v : Value) : 0x0A ∉ Bytes.ofText v.compact := by
  intro h
  rw [Bytes.ofText, Value.compact, String.toList_ofList] at h
  have := le_of_mem_encode v.printable_render _ h
  simp at this

end DumpImport.Json
