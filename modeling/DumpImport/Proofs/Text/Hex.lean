import DumpImport.Proofs.Text.Digits
import DumpImport.Text.Hex

namespace DumpImport.Text.Hex

lemma value?_upperDigit : ∀ n < 16, value? (byteOf (upperDigit n)) = some n := by decide

lemma upperDigit_ascii : ∀ n < 16, (upperDigit n).toNat < 0x80 := by decide

lemma upperDigit_ne : ∀ n < 16, upperDigit n ≠ '?' := by decide

def digits : List Char := "0123456789ABCDEF".toList

lemma upperDigit_eq : ∀ n < 16, upperDigit n = digits.getD n ' ' := by decide

lemma ofNat_nibbles (b : UInt8) : UInt8.ofNat (b.toNat / 16 * 16 + b.toNat % 16) = b := by
  rw [Nat.div_add_mod', UInt8.ofNat_toNat]

lemma lowerDigit_injOn : ∀ n < 16, ∀ m < 16, lowerDigit n = lowerDigit m → n = m := by decide

lemma lowerDigit_ne : ∀ n < 16, lowerDigit n ≠ '-' := by decide

lemma lower_injective : Function.Injective lower := by
  intro b c h
  have hb := b.toNat_lt
  have hc := c.toNat_lt
  simp only [lower, List.cons.injEq, and_true] at h
  have hhigh := lowerDigit_injOn (b.toNat / 16) (by omega) (c.toNat / 16) (by omega) h.1
  have hlow := lowerDigit_injOn (b.toNat % 16) (by omega) (c.toNat % 16) (by omega) h.2
  exact UInt8.toNat_inj.mp (by omega)

lemma flatMap_lower_injective : Function.Injective fun bs : Bytes => bs.flatMap lower := by
  intro bs cs h
  induction bs generalizing cs with
  | nil =>
    cases cs with
    | nil => rfl
    | cons c cs => cases h
  | cons b bs ih =>
    cases cs with
    | nil => cases h
    | cons c cs =>
      obtain ⟨hhead, htail⟩ := List.append_inj h rfl
      rw [lower_injective hhead, ih htail]

lemma notMem_flatMap_lower (bs : Bytes) : '-' ∉ bs.flatMap lower := by
  intro h
  obtain ⟨b, -, hb⟩ := List.mem_flatMap.mp h
  have hlt := b.toNat_lt
  simp only [lower, List.mem_cons, List.not_mem_nil, or_false] at hb
  exact hb.elim (fun hb => lowerDigit_ne _ (by omega) hb.symm) fun hb => lowerDigit_ne _ (by omega) hb.symm

end DumpImport.Text.Hex
