import DumpImport.Proofs.Text.Utf8

namespace DumpImport.Text.Utf8

lemma lead_lt {a b : Nat} (ha : a < 0x100) (hb : b < 0x100) (h : a < b) (r t : Bytes) :
    UInt8.ofNat a :: r < UInt8.ofNat b :: t := by
  apply List.cons_lt_cons_iff.mpr (.inl _)
  rw [UInt8.lt_iff_toNat_lt, UInt8.toNat_ofNat', UInt8.toNat_ofNat', Nat.mod_eq_of_lt ha, Nat.mod_eq_of_lt hb]
  exact h

lemma lead_le {a b : Nat} (ha : a < 0x100) (hb : b < 0x100) (h : a ≤ b) {r t : Bytes} (hr : a = b → r < t) :
    UInt8.ofNat a :: r < UInt8.ofNat b :: t := by
  rcases Nat.lt_or_eq_of_le h with h | rfl
  · exact lead_lt ha hb h r t
  · exact List.cons_lt_cons_iff.mpr (.inr ⟨rfl, hr rfl⟩)

lemma utf8EncodeChar_lt {c d : Char} (h : c < d) (r t : Bytes) :
    String.utf8EncodeChar c ++ r < String.utf8EncodeChar d ++ t := by
  have hc := toNat_bounds c
  have hd := toNat_bounds d
  have hn : c.toNat < d.toNat := h
  rw [utf8EncodeChar_eq, utf8EncodeChar_eq]
  generalize c.toNat = m at hc hn
  generalize d.toNat = n at hd hn
  split_ifs <;> simp only [List.cons_append, List.nil_append] <;>
    try exact lead_lt (by omega) (by omega) (by omega) _ _
  · refine lead_le (by omega) (by omega) (by omega) fun h1 => ?_
    exact lead_lt (by omega) (by omega) (by omega) _ _
  · refine lead_le (by omega) (by omega) (by omega) fun h1 => ?_
    refine lead_le (by omega) (by omega) (by omega) fun h2 => ?_
    exact lead_lt (by omega) (by omega) (by omega) _ _
  · refine lead_le (by omega) (by omega) (by omega) fun h1 => ?_
    refine lead_le (by omega) (by omega) (by omega) fun h2 => ?_
    refine lead_le (by omega) (by omega) (by omega) fun h3 => ?_
    exact lead_lt (by omega) (by omega) (by omega) _ _

lemma utf8EncodeChar_ne_nil (c : Char) : String.utf8EncodeChar c ≠ [] := by
  rw [utf8EncodeChar_eq]
  split_ifs <;> simp

lemma encode_lt {cs ds : List Char} (h : cs < ds) : encode cs < encode ds := by
  induction ds generalizing cs with
  | nil => exact absurd h (List.not_lt_nil cs)
  | cons d ds ih =>
    rw [encode_cons]
    cases cs with
    | nil =>
      obtain ⟨b, r, hb⟩ := List.exists_cons_of_ne_nil (utf8EncodeChar_ne_nil d)
      rw [hb]
      exact List.nil_lt_cons _ _
    | cons c cs =>
      rw [encode_cons]
      rcases List.cons_lt_cons_iff.mp h with hc | ⟨rfl, hs⟩
      · exact utf8EncodeChar_lt hc _ _
      · exact List.append_left_lt (ih hs)

theorem ofText_lt {s t : String} (h : s < t) : Bytes.ofText s < Bytes.ofText t :=
  encode_lt (String.lt_iff.mp h)

end DumpImport.Text.Utf8
