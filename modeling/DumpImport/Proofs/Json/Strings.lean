import DumpImport.Json.Printer
import DumpImport.Json.Reader
import DumpImport.Proofs.Text.Utf8

namespace DumpImport.Json

open Text.Utf8

def IsPlain (b : UInt8) : Prop := 0x20 ≤ b.toNat ∧ b ≠ 0x22 ∧ b ≠ 0x5C

lemma stringFrom_plain {b : UInt8} (h : IsPlain b) (acc r : Bytes) :
    stringFrom .plain acc (b :: r) = stringFrom .plain (b :: acc) r := by
  obtain ⟨hb, hq, hs⟩ := h
  have hc : ¬ b < 0x20 := by
    rw [UInt8.lt_iff_toNat_lt]
    exact Nat.not_lt.mpr hb
  simp [stringFrom, Within.step, hq, hs, hc]

lemma stringFrom_append {bs : Bytes} (h : ∀ b ∈ bs, IsPlain b) (acc r : Bytes) :
    stringFrom .plain acc (bs ++ r) = stringFrom .plain (bs.reverse ++ acc) r := by
  induction bs generalizing acc with
  | nil => rfl
  | cons b bs ih =>
    rw [List.cons_append, stringFrom_plain (h b (by simp)), ih (fun x hx => h x (by simp [hx]))]
    simp

lemma isPlain_of_mem_utf8EncodeChar {c : Char} (hc : 0x20 ≤ c.toNat) (hq : c ≠ '"') (hs : c ≠ '\\')
    {b : UInt8} (hb : b ∈ String.utf8EncodeChar c) : IsPlain b := by
  by_cases ha : c.toNat < 0x80
  · rw [utf8EncodeChar_ascii ha, List.mem_singleton] at hb
    subst hb
    have hn : (UInt8.ofNat c.toNat).toNat = c.toNat := by
      rw [UInt8.toNat_ofNat', Nat.mod_eq_of_lt (by omega)]
    refine ⟨by rw [hn]; exact hc, ?_, ?_⟩
    · intro he
      exact hq (Char.toNat_inj.mp (hn.symm.trans (congrArg UInt8.toNat he)))
    · intro he
      exact hs (Char.toNat_inj.mp (hn.symm.trans (congrArg UInt8.toNat he)))
  · have h8 := le_of_mem_utf8EncodeChar (by omega) hb
    refine ⟨by omega, ?_, ?_⟩ <;> rintro rfl <;> simp at h8

lemma value?_lowerDigit : ∀ n < 16,
    Text.Hex.value? (UInt8.ofNat (Text.Hex.lowerDigit n).toNat) = some n := by decide

lemma lowerDigit_lt : ∀ n < 16, (Text.Hex.lowerDigit n).toNat < 0x80 := by decide

lemma stringFrom_step {w : Within} {acc acc' : Bytes} {b : UInt8} {w' : Within} (hw : w ≠ .plain)
    (h : w.step b acc = .ok (w', acc')) (r : Bytes) :
    stringFrom w acc (b :: r) = stringFrom w' acc' r := by
  rw [stringFrom, if_neg (fun hh => hw hh.1), h]

lemma stringFrom_backslash (acc r : Bytes) :
    stringFrom .plain acc (0x5C :: r) = stringFrom .escape acc r := by
  simp [stringFrom, Within.step]

lemma stringFrom_simpleEscape {b c : UInt8} (hb : b ≠ 0x75) (h : simpleEscape? b = some c)
    (acc r : Bytes) : stringFrom .plain acc (0x5C :: b :: r) = stringFrom .plain (c :: acc) r := by
  rw [stringFrom_backslash]
  apply stringFrom_step (by simp)
  simp [Within.step, hb, h]

lemma stringFrom_letter (acc r : Bytes) :
    stringFrom .escape acc (0x75 :: r) = stringFrom (.hex none 3 (some 0)) acc r := by
  apply stringFrom_step (by simp)
  simp [Within.step]

lemma stringFrom_digit {n acc : Nat} (hn : n < 16) (more : Nat) (out r : Bytes) :
    stringFrom (.hex none (more + 1) (some acc)) out
      (UInt8.ofNat (Text.Hex.lowerDigit n).toNat :: r) =
        stringFrom (.hex none more (some (acc * 16 + n))) out r := by
  apply stringFrom_step (by simp)
  simp [Within.step, value?_lowerDigit n hn]

lemma stringFrom_lastDigit {n acc : Nat} (hn : n < 16) (ha : acc < 0x800) (out r : Bytes) :
    stringFrom (.hex none 0 (some acc)) out (UInt8.ofNat (Text.Hex.lowerDigit n).toNat :: r) =
      stringFrom .plain (pushChar out (acc * 16 + n)) r := by
  have hl : isLowSurrogate (acc * 16 + n) = false := by
    simp only [isLowSurrogate, Bool.and_eq_false_iff, decide_eq_false_iff_not]
    omega
  have hh : isHighSurrogate (acc * 16 + n) = false := by
    simp only [isHighSurrogate, Bool.and_eq_false_iff, decide_eq_false_iff_not]
    omega
  apply stringFrom_step (by simp)
  simp [Within.step, value?_lowerDigit n hn, unit, hl, hh]

lemma stringFrom_control {n : Nat} (h : n < 0x20) (acc r : Bytes) :
    stringFrom .plain acc
      (encode ('\\' :: 'u' :: '0' :: '0' :: Text.Hex.lower (UInt8.ofNat n)) ++ r) =
        stringFrom .plain (pushChar acc n) r := by
  have hn : (UInt8.ofNat n).toNat = n := by rw [UInt8.toNat_ofNat', Nat.mod_eq_of_lt (by omega)]
  have hu : stringFrom .escape acc (0x75 :: 0x30 :: 0x30 ::
      UInt8.ofNat (Text.Hex.lowerDigit (n / 16)).toNat ::
      UInt8.ofNat (Text.Hex.lowerDigit (n % 16)).toNat :: r) = stringFrom .plain (pushChar acc n) r := by
    rw [stringFrom_letter]
    rw [show (0x30 : UInt8) = UInt8.ofNat (Text.Hex.lowerDigit 0).toNat by decide,
      stringFrom_digit (by omega), stringFrom_digit (by omega), stringFrom_digit (by omega),
      stringFrom_lastDigit (by omega) (by omega),
      show ((0 * 16 + 0) * 16 + 0) * 16 + n / 16 = n / 16 by omega, Nat.div_add_mod']
  rw [Text.Hex.lower, hn, encode_cons_ascii (by decide), encode_cons_ascii (by decide),
    encode_cons_ascii (by decide), encode_cons_ascii (by decide),
    encode_cons_ascii (lowerDigit_lt _ (by omega)), encode_cons_ascii (lowerDigit_lt _ (by omega))]
  exact (stringFrom_backslash acc _).trans hu

lemma escapeChar_eq (c : Char) :
    (∃ d e, d ≠ 0x75 ∧ simpleEscape? d = some e ∧ encode (escapeChar c) = [0x5C, d] ∧
      String.utf8EncodeChar c = [e]) ∨
    (c.toNat < 0x20 ∧ escapeChar c = '\\' :: 'u' :: '0' :: '0' :: Text.Hex.lower (UInt8.ofNat c.toNat)) ∨
    (0x20 ≤ c.toNat ∧ c ≠ '"' ∧ c ≠ '\\' ∧ escapeChar c = [c]) := by
  by_cases hq : c = '"'
  · exact .inl ⟨0x22, 0x22, by decide, by decide, by rw [hq]; decide, by rw [hq]; decide⟩
  by_cases hs : c = '\\'
  · exact .inl ⟨0x5C, 0x5C, by decide, by decide, by rw [hs]; decide, by rw [hs]; decide⟩
  by_cases hb : c.toNat = 0x8
  · obtain rfl : c = '\x08' := Char.toNat_inj.mp hb
    exact .inl ⟨0x62, 0x8, by decide, by decide, by decide, by decide⟩
  by_cases ht : c.toNat = 0x9
  · obtain rfl : c = '\t' := Char.toNat_inj.mp ht
    exact .inl ⟨0x74, 0x9, by decide, by decide, by decide, by decide⟩
  by_cases hn : c.toNat = 0xA
  · obtain rfl : c = '\n' := Char.toNat_inj.mp hn
    exact .inl ⟨0x6E, 0xA, by decide, by decide, by decide, by decide⟩
  by_cases hf : c.toNat = 0xC
  · obtain rfl : c = '\x0c' := Char.toNat_inj.mp hf
    exact .inl ⟨0x66, 0xC, by decide, by decide, by decide, by decide⟩
  by_cases hr : c.toNat = 0xD
  · obtain rfl : c = '\r' := Char.toNat_inj.mp hr
    exact .inl ⟨0x72, 0xD, by decide, by decide, by decide, by decide⟩
  rw [escapeChar, if_neg hq, if_neg hs, if_neg hb, if_neg ht, if_neg hn, if_neg hf, if_neg hr]
  by_cases hc : c.toNat < 0x20
  · exact .inr (.inl ⟨hc, by rw [if_pos hc]; rfl⟩)
  · exact .inr (.inr ⟨by omega, hq, hs, by rw [if_neg hc]⟩)

lemma stringFrom_escapeChar (c : Char) (acc r : Bytes) :
    stringFrom .plain acc (encode (escapeChar c) ++ r) =
      stringFrom .plain ((String.utf8EncodeChar c).reverse ++ acc) r := by
  rcases escapeChar_eq c with ⟨d, e, hd, he, ht, hc⟩ | ⟨hc, ht⟩ | ⟨hc, hq, hs, ht⟩
  · rw [ht, hc]
    exact stringFrom_simpleEscape hd he acc r
  · rw [ht, stringFrom_control hc, pushChar, Char.ofNat_toNat]
  · rw [ht, encode_cons, encode_nil, List.append_nil,
      stringFrom_append fun b hb => isPlain_of_mem_utf8EncodeChar hc hq hs hb]

lemma stringFrom_escaped (cs : List Char) (acc r : Bytes) :
    stringFrom .plain acc (encode (cs.flatMap escapeChar) ++ r) =
      stringFrom .plain ((encode cs).reverse ++ acc) r := by
  induction cs generalizing acc with
  | nil => rfl
  | cons c cs ih =>
    rw [List.flatMap_cons, encode_append, List.append_assoc, stringFrom_escapeChar, ih, encode_cons]
    simp

lemma encode_renderString (s : String) :
    encode (renderString s) = 0x22 :: (encode (s.toList.flatMap escapeChar) ++ [0x22]) := by
  rw [renderString, List.cons_append, encode_cons_ascii (by decide), encode_append]
  rfl

lemma string_renderString (s : String) (r : Bytes) :
    string (encode (s.toList.flatMap escapeChar) ++ 0x22 :: r) = .ok (s, r) := by
  rw [string, stringFrom_escaped, stringFrom, if_pos ⟨rfl, rfl⟩]
  simp [decode?_encode]

end DumpImport.Json
