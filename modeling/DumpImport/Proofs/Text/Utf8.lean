import DumpImport.Text.Utf8
import Mathlib.Tactic.Common

namespace DumpImport.Text.Utf8

lemma encode_nil : encode [] = [] := rfl

lemma encode_cons (c : Char) (cs : List Char) :
    encode (c :: cs) = String.utf8EncodeChar c ++ encode cs := rfl

lemma encode_append (cs ds : List Char) : encode (cs ++ ds) = encode cs ++ encode ds := by
  simp [encode]

lemma utf8EncodeChar_ascii {c : Char} (h : c.toNat < 0x80) :
    String.utf8EncodeChar c = [UInt8.ofNat c.toNat] := by
  have hv : c.val.toNat ≤ 0x7F := Nat.le_of_lt_succ h
  rw [String.utf8EncodeChar]
  exact if_pos hv

lemma encode_cons_ascii {c : Char} (h : c.toNat < 0x80) (cs : List Char) :
    encode (c :: cs) = UInt8.ofNat c.toNat :: encode cs := by
  rw [encode_cons, utf8EncodeChar_ascii h, List.singleton_append]

lemma toNat_bounds (c : Char) : c.toNat < 0xD800 ∨ 0xE000 ≤ c.toNat ∧ c.toNat < 0x110000 := by
  have h := c.valid
  simp only [UInt32.isValidChar, Nat.isValidChar] at h
  change c.val.toNat < 0xD800 ∨ 0xE000 ≤ c.val.toNat ∧ c.val.toNat < 0x110000
  omega

lemma utf8EncodeChar_eq (c : Char) : String.utf8EncodeChar c =
    if c.toNat ≤ 0x7F then [UInt8.ofNat c.toNat]
    else if c.toNat ≤ 0x7FF then
      [UInt8.ofNat (c.toNat / 64 % 0x20 + 0xC0), UInt8.ofNat (c.toNat % 0x40 + 0x80)]
    else if c.toNat ≤ 0xFFFF then
      [UInt8.ofNat (c.toNat / 4096 % 0x10 + 0xE0), UInt8.ofNat (c.toNat / 64 % 0x40 + 0x80),
        UInt8.ofNat (c.toNat % 0x40 + 0x80)]
    else
      [UInt8.ofNat (c.toNat / 262144 % 0x8 + 0xF0), UInt8.ofNat (c.toNat / 4096 % 0x40 + 0x80),
        UInt8.ofNat (c.toNat / 64 % 0x40 + 0x80), UInt8.ofNat (c.toNat % 0x40 + 0x80)] := rfl

lemma le_of_mem_utf8EncodeChar {c : Char} (h : 0x80 ≤ c.toNat) {b : UInt8}
    (hb : b ∈ String.utf8EncodeChar c) : 0x80 ≤ b.toNat := by
  rw [utf8EncodeChar_eq, if_neg (by omega)] at hb
  split at hb
  · simp only [List.mem_cons, List.not_mem_nil, or_false] at hb
    rcases hb with rfl | rfl <;> simp only [UInt8.toNat_ofNat'] <;> omega
  · split at hb
    · simp only [List.mem_cons, List.not_mem_nil, or_false] at hb
      rcases hb with rfl | rfl | rfl <;> simp only [UInt8.toNat_ofNat'] <;> omega
    · simp only [List.mem_cons, List.not_mem_nil, or_false] at hb
      rcases hb with rfl | rfl | rfl | rfl <;> simp only [UInt8.toNat_ofNat'] <;> omega

namespace State

lemma step_one {n : Nat} (h : n < 0x80) : step .between n = (.between, [some (Char.ofNat n)]) := by
  rw [step, lead, if_pos h]

lemma step_two {n : Nat} (hlo : 0x80 ≤ n) (hhi : n < 0x800) :
    step .between (n / 64 % 0x20 + 0xC0) = (.inside (n / 64) 0 0x80 0xBF, []) := by
  rw [step, lead, if_neg (by omega), if_pos (by omega), show n / 64 % 0x20 + 0xC0 - 0xC0 = n / 64 by omega]

lemma step_three {n : Nat} (hlo : 0x800 ≤ n) (hhi : n < 0x10000) (hs : n < 0xD800 ∨ 0xE000 ≤ n) :
    ∃ lo hi, step .between (n / 4096 % 0x10 + 0xE0) = (.inside (n / 4096) 1 lo hi, []) ∧
      lo ≤ n / 64 % 0x40 + 0x80 ∧ n / 64 % 0x40 + 0x80 ≤ hi := by
  rw [step, lead, if_neg (by omega), if_neg (by omega)]
  by_cases h0 : n / 4096 = 0
  · exact ⟨0xA0, 0xBF, by rw [h0]; rfl, by omega, by omega⟩
  by_cases hd : n / 4096 = 0xD
  · exact ⟨0x80, 0x9F, by rw [hd]; rfl, by omega, by omega⟩
  refine ⟨0x80, 0xBF, ?_, by omega, by omega⟩
  rw [if_neg (by omega), if_neg (by omega), if_pos (by omega),
    show n / 4096 % 0x10 + 0xE0 - 0xE0 = n / 4096 by omega]

lemma step_four {n : Nat} (hlo : 0x10000 ≤ n) (hhi : n < 0x110000) :
    ∃ lo hi, step .between (n / 262144 % 0x8 + 0xF0) = (.inside (n / 262144) 2 lo hi, []) ∧
      lo ≤ n / 4096 % 0x40 + 0x80 ∧ n / 4096 % 0x40 + 0x80 ≤ hi := by
  rw [step, lead, if_neg (by omega), if_neg (by omega), if_neg (by omega), if_neg (by omega),
    if_neg (by omega)]
  by_cases h0 : n / 262144 = 0
  · exact ⟨0x90, 0xBF, by rw [h0]; rfl, by omega, by omega⟩
  by_cases h4 : n / 262144 = 4
  · exact ⟨0x80, 0x8F, by rw [h4]; rfl, by omega, by omega⟩
  refine ⟨0x80, 0xBF, ?_, by omega, by omega⟩
  rw [if_neg (by omega), if_neg (by omega), if_pos (by omega),
    show n / 262144 % 0x8 + 0xF0 - 0xF0 = n / 262144 by omega]

lemma step_last {acc lo hi b : Nat} (hlo : lo ≤ b) (hhi : b ≤ hi) :
    step (.inside acc 0 lo hi) b = (.between, [some (Char.ofNat (acc * 64 + (b - 0x80)))]) := by
  rw [step, if_pos ⟨hlo, hhi⟩]

lemma step_more {acc more lo hi b : Nat} (hlo : lo ≤ b) (hhi : b ≤ hi) :
    step (.inside acc (more + 1) lo hi) b =
      (.inside (acc * 64 + (b - 0x80)) more 0x80 0xBF, []) := by
  rw [step, if_pos ⟨hlo, hhi⟩]

end State

namespace Machine

lemma feed_ofNat (s : State) (out : List Piece) {n : Nat} (h : n < 256) :
    feed ⟨s, out⟩ (UInt8.ofNat n) = ⟨(s.step n).1, (s.step n).2.reverse ++ out⟩ := by
  simp only [feed, UInt8.toNat_ofNat', Nat.mod_eq_of_lt h]

lemma feed_silent {s t : State} {n : Nat} (hs : s.step n = (t, [])) (h : n < 256)
    (out : List Piece) : feed ⟨s, out⟩ (UInt8.ofNat n) = ⟨t, out⟩ := by
  rw [feed_ofNat s out h, hs]
  rfl

lemma feed_whole {s t : State} {n : Nat} {p : Piece} (hs : s.step n = (t, [p])) (h : n < 256)
    (out : List Piece) : feed ⟨s, out⟩ (UInt8.ofNat n) = ⟨t, p :: out⟩ := by
  rw [feed_ofNat s out h, hs]
  rfl

lemma feed_char (c : Char) (out : List Piece) :
    (String.utf8EncodeChar c).foldl feed ⟨.between, out⟩ = ⟨.between, some c :: out⟩ := by
  have hc := toNat_bounds c
  have hv : Char.ofNat c.toNat = c := Char.ofNat_toNat c
  rw [utf8EncodeChar_eq]
  generalize c.toNat = n at hc hv
  split
  · rw [List.foldl_cons, List.foldl_nil, feed_whole (State.step_one (n := n) (by omega)) (by omega), hv]
  · split
    · simp only [List.foldl_cons, List.foldl_nil]
      rw [feed_silent (State.step_two (n := n) (by omega) (by omega)) (by omega),
        feed_whole (State.step_last (b := n % 0x40 + 0x80) (by omega) (by omega)) (by omega),
        show n / 64 * 64 + (n % 0x40 + 0x80 - 0x80) = n by omega, hv]
    · split
      · obtain ⟨lo, hi, hl, hlo, hhi⟩ := State.step_three (n := n) (by omega) (by omega) (by omega)
        simp only [List.foldl_cons, List.foldl_nil]
        rw [feed_silent hl (by omega), feed_silent (State.step_more hlo hhi) (by omega),
          feed_whole (State.step_last (b := n % 0x40 + 0x80) (by omega) (by omega)) (by omega),
          show (n / 4096 * 64 + (n / 64 % 0x40 + 0x80 - 0x80)) * 64 + (n % 0x40 + 0x80 - 0x80) = n by
            omega, hv]
      · obtain ⟨lo, hi, hl, hlo, hhi⟩ := State.step_four (n := n) (by omega) (by omega)
        simp only [List.foldl_cons, List.foldl_nil]
        rw [feed_silent hl (by omega), feed_silent (State.step_more hlo hhi) (by omega),
          feed_silent (State.step_more (b := n / 64 % 0x40 + 0x80) (by omega) (by omega)) (by omega),
          feed_whole (State.step_last (b := n % 0x40 + 0x80) (by omega) (by omega)) (by omega),
          show ((n / 262144 * 64 + (n / 4096 % 0x40 + 0x80 - 0x80)) * 64 +
            (n / 64 % 0x40 + 0x80 - 0x80)) * 64 + (n % 0x40 + 0x80 - 0x80) = n by omega, hv]

lemma feed_encode (cs : List Char) (out : List Piece) :
    (encode cs).foldl feed ⟨.between, out⟩ = ⟨.between, (cs.map some).reverse ++ out⟩ := by
  induction cs generalizing out with
  | nil => rfl
  | cons c cs ih =>
    rw [encode_cons, List.foldl_append, feed_char, ih]
    simp

end Machine

lemma pieces_encode (cs : List Char) : pieces (encode cs) = cs.map some := by
  rw [pieces, Machine.start, Machine.feed_encode]
  simp [Machine.finish, State.flush]

lemma decode?_encode (cs : List Char) : decode? (encode cs) = some cs := by
  simp [decode?, pieces_encode, List.filterMap_map, Function.comp_def]

lemma lossy_encode (cs : List Char) : lossy (encode cs) = cs := by
  simp [lossy, pieces_encode, Function.comp_def]

end DumpImport.Text.Utf8
