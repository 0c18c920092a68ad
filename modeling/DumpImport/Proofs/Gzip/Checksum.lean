import DumpImport.Gzip.Checksum
import Mathlib.Algebra.Field.ZMod
import Mathlib.Algebra.Polynomial.Div
import Mathlib.Tactic.ComputeDegree
import Mathlib.Tactic.LinearCombination
import Mathlib.Tactic.Ring

namespace DumpImport.Gzip

open Polynomial

noncomputable section

section Words

variable {n : Nat}

/-- The highest bit is the constant term. -/
def poly (a : BitVec n) : (ZMod 2)[X] := ∑ i ∈ Finset.range n, if a.getMsbD i then X ^ i else 0

lemma coeff_poly (a : BitVec n) (i : Nat) : (poly a).coeff i = if a.getMsbD i then 1 else 0 := by
  have h (j : Nat) : (if a.getMsbD j then (X : (ZMod 2)[X]) ^ j else 0).coeff i =
      if i = j then (if a.getMsbD i then 1 else 0) else 0 := by
    split_ifs <;> simp_all [coeff_X_pow]
  simp only [poly, finsetSum_coeff, h, Finset.sum_ite_eq, Finset.mem_range]
  by_cases hi : i < n
  · rw [if_pos hi]
  · rw [if_neg hi, BitVec.getMsbD_of_ge a i (Nat.not_lt.mp hi)]
    rfl

lemma poly_zero : poly (0#n) = 0 := by
  ext i
  rw [coeff_poly, coeff_zero, BitVec.getMsbD_zero]
  rfl

lemma poly_xor (a b : BitVec n) : poly (a ^^^ b) = poly a + poly b := by
  ext i
  rw [coeff_add, coeff_poly, coeff_poly, coeff_poly, BitVec.getMsbD_xor]
  cases a.getMsbD i <;> cases b.getMsbD i <;> decide

lemma degree_poly (a : BitVec n) : (poly a).degree < n := by
  rw [degree_lt_iff_coeff_zero]
  intro i hi
  rw [coeff_poly, BitVec.getMsbD_of_ge a i hi]
  rfl

lemma poly_injective : Function.Injective (poly (n := n)) := by
  intro a b h
  apply BitVec.eq_of_getMsbD_eq
  intro i _
  have hc := congrArg (coeff · i) h
  simp only [coeff_poly] at hc
  cases ha : a.getMsbD i <;> cases hb : b.getMsbD i <;> simp_all

/-- What is shifted out goes beyond the highest power. -/
lemma poly_shiftRight (a : BitVec n) {k : Nat} (hk : k ≤ n) :
    X ^ k * poly a = poly (a >>> k) + X ^ n * poly (a.setWidth k) := by
  ext i
  rw [coeff_add, coeff_X_pow_mul', coeff_X_pow_mul', coeff_poly, coeff_poly, coeff_poly,
    BitVec.getMsbD_ushiftRight]
  by_cases hi : i < n
  · by_cases hik : i < k
    · simp [Nat.not_le.mpr hi, Nat.not_le.mpr hik, hik]
    · simp [hi, hik, Nat.not_lt.mp hik]
  · obtain ⟨j, rfl⟩ := Nat.exists_eq_add_of_le (Nat.not_lt.mp hi)
    have hk' : k ≤ n + j := hk.trans (Nat.le_add_right n j)
    have hj : j + n - k = n + j - k := by rw [Nat.add_comm]
    simp [hk', hj, BitVec.getMsbD_setWidth, Nat.sub_eq_zero_of_le hk]

end Words

def generator : (ZMod 2)[X] :=
  X ^ 32 + (X ^ 26 + X ^ 23 + X ^ 22 + X ^ 16 + X ^ 12 + X ^ 11 + X ^ 10 + X ^ 8 + X ^ 7 + X ^ 5 + X ^ 4 +
    X ^ 2 + X + 1)

lemma generator_monic : generator.Monic := by
  apply monic_X_pow_add
  compute_degree!

lemma degree_generator : generator.degree = 32 := by
  rw [generator]
  compute_degree!

lemma generator_eq : generator = X ^ 32 + poly (0xEDB88320 : UInt32).toBitVec := by
  rw [generator, poly]
  simp [Finset.sum_range_succ, BitVec.getMsbD]
  ring

lemma poly_shifted (c : UInt32) {k : Nat} (hk : k < 32) :
    X ^ k * poly c.toBitVec = poly (c >>> .ofNat k).toBitVec + X ^ 32 * poly (c.toBitVec.setWidth k) := by
  have h : (c >>> .ofNat k).toBitVec = c.toBitVec >>> k := by
    apply BitVec.eq_of_toNat_eq
    rw [BitVec.toNat_ushiftRight, UInt32.toNat_toBitVec, UInt32.toNat_toBitVec, UInt32.toNat_shiftRight,
      UInt32.toNat_ofNat_of_lt' (hk.trans (by decide)), Nat.mod_eq_of_lt hk]
  rw [h]
  exact poly_shiftRight c.toBitVec hk.le

lemma poly_lowestBit (c : UInt32) : poly (c.toBitVec.setWidth 1) = if c % 2 = 1 then 1 else 0 := by
  have h : (c.toBitVec.setWidth 1).getMsbD 0 = true ↔ c % 2 = 1 := by
    rw [← UInt32.toNat_inj, UInt32.toNat_mod, BitVec.getMsbD_setWidth]
    simp [BitVec.getMsbD, BitVec.getLsbD, Nat.testBit_zero]
  rw [poly, Finset.sum_range_one, pow_zero]
  simp only [h]

lemma poly_crcBit (c : UInt32) :
    poly (crcBit c).toBitVec = X * poly c.toBitVec + (if c % 2 = 1 then generator else 0) := by
  have hshift : X * poly c.toBitVec = poly (c >>> 1).toBitVec + X ^ 32 * (if c % 2 = 1 then 1 else 0) := by
    have h := poly_shifted c (show 1 < 32 by decide)
    rw [pow_one, poly_lowestBit] at h
    exact h
  have htwo : (2 : (ZMod 2)[X]) = 0 := CharTwo.two_eq_zero
  rw [hshift, crcBit]
  split_ifs with h
  · rw [UInt32.toBitVec_xor, poly_xor, generator_eq]
    linear_combination -X ^ 32 * htwo
  · ring

lemma dvd_crcBits (n : Nat) (c : UInt32) :
    generator ∣ poly (crcBits n c).toBitVec - X ^ n * poly c.toBitVec := by
  induction n generalizing c with
  | zero => simp [crcBits]
  | succ n ih =>
    have hbit : generator ∣ poly (crcBit c).toBitVec - X * poly c.toBitVec := by
      rw [poly_crcBit, add_sub_cancel_left]
      split_ifs
      · exact dvd_rfl
      · exact dvd_zero _
    have h := (ih (crcBit c)).add (hbit.mul_left (X ^ n))
    rw [crcBits]
    convert h using 1
    ring

lemma crcTable_getD {k : Nat} (hk : k < 256) : crcTable.getD k 0 = crcBits 8 (.ofNat k) := by
  simp [crcTable, Array.getD, hk]

lemma poly_lowestByte (c : UInt32) : X ^ 8 * poly (c % 256).toBitVec = X ^ 32 * poly c.toUInt8.toBitVec := by
  have hshift : (c % 256) >>> .ofNat 8 = 0 := by
    rw [← UInt32.toNat_inj, UInt32.toNat_shiftRight, UInt32.toNat_mod, Nat.shiftRight_eq_div_pow]
    exact Nat.div_eq_of_lt (Nat.mod_lt c.toNat (show 0 < 256 by decide))
  have hlow : (c % 256).toUInt8 = c.toUInt8 := by
    rw [← UInt8.toNat_inj, UInt32.toNat_toUInt8, UInt32.toNat_toUInt8, UInt32.toNat_mod]
    exact Nat.mod_mod _ _
  have h := poly_shifted (c % 256) (show 8 < 32 by decide)
  rw [hshift, UInt32.toBitVec_zero, poly_zero, zero_add] at h
  rw [h, ← hlow]
  rfl

lemma dvd_crcStep (c : UInt32) (b : UInt8) :
    generator ∣ poly (crcStep c b).toBitVec - (X ^ 8 * poly c.toBitVec + X ^ 32 * poly b.toBitVec) := by
  have hlow : (c ^^^ b.toUInt32).toUInt8 = c.toUInt8 ^^^ b := by
    rw [UInt32.toUInt8_xor, UInt8.toUInt8_toUInt32]
  have hbyte := poly_lowestByte (c ^^^ b.toUInt32)
  rw [hlow, UInt8.toBitVec_xor, poly_xor] at hbyte
  have hk : ((c ^^^ b.toUInt32) % 256).toNat < 256 := by
    rw [UInt32.toNat_mod]
    exact Nat.mod_lt _ (by decide)
  have hshift : X ^ 8 * poly c.toBitVec = poly (c >>> 8).toBitVec + X ^ 32 * poly c.toUInt8.toBitVec :=
    poly_shifted c (show 8 < 32 by decide)
  rw [crcStep, crcTable_getD hk, UInt32.ofNat_toNat, UInt32.toBitVec_xor, poly_xor, hshift]
  convert dvd_crcBits 8 ((c ^^^ b.toUInt32) % 256) using 1
  rw [hbyte]
  ring

/-- The first byte stands highest. -/
def message : Bytes → (ZMod 2)[X]
  | [] => 0
  | b :: bs => X ^ (8 * bs.length) * poly b.toBitVec + message bs

lemma dvd_foldl_crcStep (bs : Bytes) (c : UInt32) :
    generator ∣ poly (bs.foldl crcStep c).toBitVec -
      (X ^ (8 * bs.length) * poly c.toBitVec + X ^ 32 * message bs) := by
  induction bs generalizing c with
  | nil => simp [message]
  | cons b bs ih =>
    have h := (ih (crcStep c b)).add ((dvd_crcStep c b).mul_left (X ^ (8 * bs.length)))
    rw [List.foldl_cons, message, List.length_cons]
    convert h using 1
    ring

def ones : (ZMod 2)[X] := ∑ i ∈ Finset.range 32, X ^ i

lemma poly_ones : poly (0xFFFFFFFF : UInt32).toBitVec = ones := by
  simp [poly, ones, Finset.sum_range_succ, BitVec.getMsbD]

lemma poly_crc32 (bs : Bytes) : poly (crc32 bs).toBitVec =
    (X ^ (8 * bs.length) * ones + X ^ 32 * message bs) %ₘ generator + ones := by
  have hdvd := dvd_foldl_crcStep bs 0xFFFFFFFF
  have hdeg : (poly (bs.foldl crcStep 0xFFFFFFFF).toBitVec).degree < generator.degree := by
    rw [degree_generator]
    exact degree_poly _
  rw [crc32, UInt32.toBitVec_xor, poly_xor, ← poly_ones, ← modByMonic_eq_of_dvd_sub generator_monic hdvd,
    (modByMonic_eq_self_iff generator_monic).mpr hdeg]

/-- The checksum, with all bits turned over, is the remainder of the message behind 32 ones. -/
theorem crc32_eq_iff {bs : Bytes} {c : UInt32} : crc32 bs = c ↔
    poly c.toBitVec + ones = (X ^ (8 * bs.length) * ones + X ^ 32 * message bs) %ₘ generator := by
  rw [← UInt32.toBitVec_inj, ← poly_injective.eq_iff, poly_crc32, eq_comm, ← sub_eq_iff_eq_add,
    CharTwo.sub_eq_add]

end

end DumpImport.Gzip
