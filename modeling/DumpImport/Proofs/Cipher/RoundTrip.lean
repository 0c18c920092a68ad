import DumpImport.Cipher.Engine
import DumpImport.Proofs.Outcome
import DumpImport.Proofs.Text.Base64

namespace DumpImport.Cipher

lemma Keystream.apply_apply (k : Keystream) (bs : Bytes) : (k.apply (k.apply bs).1).1 = bs := by
  induction bs generalizing k with
  | nil => rfl
  | cons b bs ih =>
    simp only [apply_cons, ih]
    rw [UInt8.xor_assoc, UInt8.xor_self, UInt8.xor_zero]

lemma Keystream.ofBytes_block (E : BlockFunction) (key : Bytes) (iv : Block) :
    ofBytes E key iv.bytes =
      if isKeyLength key.length then .ok (start (E key) iv) else .error (.keyLength key.length) := rfl

lemma decode_encode (p : Part) (bs : Bytes) : decode p (Text.Base64.encode bs) = .ok bs := by
  rw [decode, Text.Base64.trim_encode, Text.Base64.decode_encode]

lemma encrypt_eq_ok {E : BlockFunction} {key : String} {iv : Block} {plain : Bytes} {s : Sealed} :
    encrypt E key iv plain = .ok s ↔ ∃ k, decode .key key = .ok k ∧ isKeyLength k.length = true ∧
      s = ⟨Text.Base64.encode iv.bytes, Text.Base64.encode ((Keystream.start (E k) iv).apply plain).1⟩ := by
  rw [encrypt, bind_eq_ok]
  refine exists_congr fun k => and_congr_right fun _ => ?_
  by_cases hl : isKeyLength k.length
  · simp [bind, Except.bind, Keystream.ofBytes_block, hl, eq_comm]
  · simp [bind, Except.bind, Keystream.ofBytes_block, hl]

theorem decrypt_encrypt {E : BlockFunction} {key : String} {iv : Block} {plain : Bytes} {s : Sealed}
    (h : encrypt E key iv plain = .ok s) : decrypt E key s.iv s.body = .ok plain := by
  obtain ⟨k, hk, hl, rfl⟩ := encrypt_eq_ok.mp h
  simp only [decrypt, Keystream.ofText, hk, decode_encode, bind, Except.bind,
    Keystream.ofBytes_block, if_pos hl, Keystream.apply_apply]

end DumpImport.Cipher
