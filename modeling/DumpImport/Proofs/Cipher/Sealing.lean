import DumpImport.Cipher.Aes
import DumpImport.Proofs.Cipher.Counter
import DumpImport.Proofs.Cipher.RoundTrip

namespace DumpImport.Cipher

variable {E : BlockFunction} {key : String} {iv : Block} {plain : Bytes} {s : Sealed}

/-- The text of a key: padded base64, perhaps with blanks around it. -/
def IsKey (key : String) (k : Bytes) : Prop :=
  Text.trim key = Text.Base64.encode k ∧ (k.length = 16 ∨ k.length = 24 ∨ k.length = 32)

lemma decode_eq_ok {p : Part} {s : String} {bs : Bytes} :
    decode p s = .ok bs ↔ Text.trim s = Text.Base64.encode bs := by
  rw [← Text.Base64.decode_eq_ok_iff, decode]
  cases Text.Base64.decode (Text.trim s) <;> simp

lemma isKeyLength_iff {n : Nat} : isKeyLength n = true ↔ n = 16 ∨ n = 24 ∨ n = 32 := by
  simp [isKeyLength, or_assoc]

lemma encrypt_of_isKey {k : Bytes} (h : IsKey key k) (E : BlockFunction) (iv : Block) (plain : Bytes) :
    encrypt E key iv plain =
      .ok ⟨Text.Base64.encode iv.bytes, Text.Base64.encode ((Keystream.start (E k) iv).apply plain).1⟩ :=
  encrypt_eq_ok.mpr ⟨k, decode_eq_ok.mpr h.1, isKeyLength_iff.mpr h.2, rfl⟩

lemma exists_isKey (h : encrypt E key iv plain = .ok s) : ∃ k, IsKey key k := by
  obtain ⟨k, hk, hl, -⟩ := encrypt_eq_ok.mp h
  exact ⟨k, decode_eq_ok.mp hk, isKeyLength_iff.mp hl⟩

/-- A payload is sealed if and only if the key is usable. What comes of it is the vector and as many
bytes as the payload has, each combined with the byte at its place of the encrypted successors of the
vector, which wrap around; and it is opened again, whatever encrypts a block. -/
theorem sealed_opened_again (E : BlockFunction) (key : String) (iv : Block) (plain : Bytes) :
    ((∃ s, encrypt E key iv plain = .ok s) ↔ ∃ k, IsKey key k) ∧
    ∀ s, encrypt E key iv plain = .ok s →
      ∃ k body : Bytes, IsKey key k ∧ s.iv = Text.Base64.encode iv.bytes ∧ iv.bytes.length = 16 ∧
        s.body = Text.Base64.encode body ∧ body.length = plain.length ∧
        (body = plain.mapIdx fun i b => b ^^^ Keystream.byteAt (E k) iv i) ∧
        decrypt E key s.iv s.body = .ok plain := by
  refine ⟨⟨fun ⟨s, hs⟩ => exists_isKey hs, fun ⟨k, hk⟩ => ⟨_, encrypt_of_isKey hk E iv plain⟩⟩,
    fun s hs => ?_⟩
  obtain ⟨k, hk⟩ := exists_isKey hs
  have hbody := (Keystream.at_start.apply plain : _ ∧ Keystream.At (E k) iv _ _).1
  simp only [Nat.zero_add] at hbody
  cases (encrypt_of_isKey hk E iv plain).symm.trans hs
  exact ⟨k, _, hk, rfl, rfl, rfl, by rw [hbody, List.length_mapIdx], hbody, decrypt_encrypt hs⟩

theorem sealed_opened_again_wrapping : ∃ (key : String) (k : Bytes) (s : Sealed) (body : Bytes),
    IsKey key k ∧ encrypt Aes.encrypt key (.ofNat (2 ^ 128 - 1)) (List.replicate 17 0) = .ok s ∧
    s.body = Text.Base64.encode body ∧ body.length = 17 ∧
    body[16]? = some ((Aes.encrypt k (.ofNat 0)).bytes.getD 0 0) ∧
    decrypt Aes.encrypt key s.iv s.body = .ok (List.replicate 17 0) := by
  obtain ⟨usable, opened⟩ :=
    sealed_opened_again Aes.encrypt " AAAAAAAAAAAAAAAAAAAAAA==\n" (.ofNat (2 ^ 128 - 1))
      (List.replicate 17 0)
  obtain ⟨s, hs⟩ := usable.mpr ⟨List.replicate 16 0, by decide, .inl rfl⟩
  obtain ⟨k, body, hk, -, -, hb, hl, he, hd⟩ := opened s hs
  refine ⟨_, k, s, body, hk, hs, hb, hl, ?_, hd⟩
  have hz : ((2 ^ 128 - 1) % 2 ^ 128 + 16 / 16) % 2 ^ 128 = 0 := rfl
  have hw : Keystream.byteAt (Aes.encrypt k) (.ofNat (2 ^ 128 - 1)) 16 =
      (Aes.encrypt k (.ofNat 0)).bytes.getD 0 0 := by
    rw [Keystream.byteAt, Block.toNat_ofNat, hz]
  rw [he, List.getElem?_mapIdx, ← hw]
  simp

end DumpImport.Cipher
