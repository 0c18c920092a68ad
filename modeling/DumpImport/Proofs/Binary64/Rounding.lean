import DumpImport.Binary64.Basic
import Mathlib.Algebra.Order.Field.Power
import Mathlib.Data.Rat.Cast.Order
import Mathlib.Tactic.FieldSimp
import Mathlib.Tactic.Linarith
import Mathlib.Tactic.NormNum
import Mathlib.Tactic.Positivity
import Mathlib.Tactic.Ring

namespace DumpImport

section HalfEven

lemma divHalfEven_spec (a : ℕ) {b : ℕ} (hb : 0 < b) :
    2 * (divHalfEven a b * b) ≤ 2 * a + b ∧ 2 * a ≤ 2 * (divHalfEven a b * b) + b := by
  have hd : a / b * b + a % b = a := Nat.div_add_mod' a b
  have hr : a % b < b := Nat.mod_lt a hb
  have hq : a / b % 2 * b ≤ 1 * b := Nat.mul_le_mul_right b (Nat.le_of_lt_succ (Nat.mod_lt _ two_pos))
  rw [divHalfEven]
  generalize a / b % 2 = s at hq
  generalize a / b = q at hd
  split_ifs
  · omega
  · rw [Nat.add_mul]
    omega
  · rw [Nat.add_mul]
    omega

lemma abs_divHalfEven_sub (a : ℕ) {b : ℕ} (hb : 0 < b) : |(divHalfEven a b : ℚ) - a / b| ≤ 1 / 2 := by
  obtain ⟨hle, hge⟩ := divHalfEven_spec a hb
  have hb' : (0 : ℚ) < b := by exact_mod_cast hb
  have hle' : (2 * (divHalfEven a b * b) : ℚ) ≤ 2 * a + b := by exact_mod_cast hle
  have hge' : (2 * a : ℚ) ≤ 2 * (divHalfEven a b * b) + b := by exact_mod_cast hge
  have he : (divHalfEven a b : ℚ) - a / b = (divHalfEven a b * b - a) / b := by field_simp
  rw [he, abs_div, abs_of_pos hb', div_le_iff₀ hb', abs_le]
  constructor <;> linarith

end HalfEven

lemma pow_toNat_div (x : ℚ) (e : ℤ) : x ^ e.toNat / x ^ (-e).toNat = x ^ e := by
  rcases le_total 0 e with he | he
  · obtain ⟨n, rfl⟩ := Int.eq_ofNat_of_zero_le he
    simp
  · obtain ⟨n, hn⟩ := Int.eq_ofNat_of_zero_le (neg_nonneg.mpr he)
    obtain rfl : e = -n := by omega
    simp

lemma shift_div_shift (a b : ℕ) (e : ℤ) :
    ((a <<< e.toNat : ℕ) : ℚ) / (b <<< (-e).toNat : ℕ) = a / b * 2 ^ e := by
  rw [Nat.shiftLeft_eq, Nat.shiftLeft_eq, ← pow_toNat_div]
  push_cast
  field_simp

lemma shift_div_shift_neg (a b : ℕ) (e : ℤ) :
    ((a <<< (-e).toNat : ℕ) : ℚ) / (b <<< e.toNat : ℕ) = a / b / 2 ^ e := by
  have h := shift_div_shift a b (-e)
  rwa [neg_neg, zpow_neg, ← div_eq_mul_inv] at h

namespace Magnitude

def value (x : Magnitude) : ℚ := x.mant * 2 ^ x.exp

lemma value_nonneg (x : Magnitude) : 0 ≤ x.value := by
  rw [value]
  positivity

structure Valid (x : Magnitude) : Prop where
  mant_lt : x.mant < 2 ^ 53
  exp_ge : -1074 ≤ x.exp
  exp_le : x.exp ≤ 971

section Exponent

variable {a b : ℕ} (ha : a ≠ 0) (hb : b ≠ 0)

include ha hb

lemma ratio_bounds :
    (2 : ℚ) ^ ((a.log2 : ℤ) - b.log2 - 1) ≤ a / b ∧ (a : ℚ) / b < 2 ^ ((a.log2 : ℤ) - b.log2 + 1) := by
  have hb' : (0 : ℚ) < b := by exact_mod_cast Nat.pos_of_ne_zero hb
  have hal : (2 : ℚ) ^ (a.log2 : ℤ) ≤ a := by exact_mod_cast Nat.log2_self_le ha
  have hau : (a : ℚ) < 2 ^ ((a.log2 : ℤ) + 1) := by exact_mod_cast Nat.lt_log2_self
  have hbl : (2 : ℚ) ^ (b.log2 : ℤ) ≤ b := by exact_mod_cast Nat.log2_self_le hb
  have hbu : (b : ℚ) < 2 ^ ((b.log2 : ℤ) + 1) := by exact_mod_cast Nat.lt_log2_self
  constructor
  · rw [le_div_iff₀ hb']
    calc (2 : ℚ) ^ ((a.log2 : ℤ) - b.log2 - 1) * b
        ≤ 2 ^ ((a.log2 : ℤ) - b.log2 - 1) * 2 ^ ((b.log2 : ℤ) + 1) := by gcongr
      _ = 2 ^ (a.log2 : ℤ) := by rw [← zpow_add₀ two_ne_zero]; congr 1; ring
      _ ≤ a := hal
  · rw [div_lt_iff₀ hb']
    calc (a : ℚ) < 2 ^ ((a.log2 : ℤ) + 1) := hau
      _ = 2 ^ ((a.log2 : ℤ) - b.log2 + 1) * 2 ^ (b.log2 : ℤ) := by rw [← zpow_add₀ two_ne_zero]; congr 1; ring
      _ ≤ 2 ^ ((a.log2 : ℤ) - b.log2 + 1) * b := by gcongr

lemma exponentOf_spec : -1074 ≤ exponentOf a b ∧ (a : ℚ) / b < 2 ^ (exponentOf a b + 53) ∧
    (exponentOf a b = -1074 ∨ (2 : ℚ) ^ (exponentOf a b + 52) ≤ a / b) := by
  obtain ⟨hlow, hhigh⟩ := ratio_bounds ha hb
  have hb' : (0 : ℚ) < b := by exact_mod_cast Nat.pos_of_ne_zero hb
  set e : ℤ := (a.log2 : ℤ) - b.log2 - 53 with he
  have hcond : a <<< (-e).toNat < b <<< e.toNat <<< 53 ↔ (a : ℚ) / b < 2 ^ (e + 53) := by
    have hpos : (0 : ℚ) < (b <<< e.toNat : ℕ) := by
      rw [Nat.shiftLeft_eq]
      push_cast
      positivity
    rw [zpow_add₀ two_ne_zero, ← div_lt_iff₀' (by positivity), ← shift_div_shift_neg, div_lt_iff₀ hpos,
      Nat.shiftLeft_eq _ 53, mul_comm]
    exact_mod_cast Iff.rfl
  obtain ⟨f, hf, hfu, hfl⟩ : ∃ f, exponentOf a b = max f (-1074) ∧ (a : ℚ) / b < 2 ^ (f + 53) ∧
      (2 : ℚ) ^ (f + 52) ≤ a / b := by
    by_cases hc : a <<< (-e).toNat < b <<< e.toNat <<< 53
    · refine ⟨e, by rw [exponentOf, ← he]; simp only [if_pos hc], hcond.mp hc, ?_⟩
      rwa [show e + 52 = (a.log2 : ℤ) - b.log2 - 1 by omega]
    · refine ⟨e + 1, by rw [exponentOf, ← he]; simp only [if_neg hc], ?_, ?_⟩
      · rwa [show e + 1 + 53 = (a.log2 : ℤ) - b.log2 + 1 by omega]
      · rw [show e + 1 + 52 = e + 53 by omega]
        exact not_lt.mp (hcond.not.mp hc)
  rw [hf]
  refine ⟨le_max_right _ _, hfu.trans_le ?_, ?_⟩
  · exact zpow_le_zpow_right₀ one_le_two (by omega)
  · rcases le_total f (-1074) with h | h
    · exact .inl (max_eq_right h)
    · exact .inr (by rwa [max_eq_left h])

end Exponent

/-- A ratio has no magnitude from here on. -/
def limit : ℚ := (2 ^ 54 - 1) * 2 ^ (970 : ℤ)

/-- Off by half of the last place at most, or by half of the least magnitude. -/
structure Rounds (q : ℚ) (r : Magnitude) : Prop where
  valid : r.Valid
  error : |r.value - q| ≤ max (q / 2 ^ 53) (2 ^ (-1075 : ℤ))

lemma half_place_le {q : ℚ} {e : ℤ} (h : e = -1074 ∨ (2 : ℚ) ^ (e + 52) ≤ q) :
    (2 : ℚ) ^ (e - 1) ≤ max (q / 2 ^ 53) (2 ^ (-1075 : ℤ)) := by
  rcases h with h | h
  · have he : e - 1 = -1075 := by omega
    rw [he]
    exact le_max_right _ _
  · have hpow : (2 : ℚ) ^ (e - 1) * 2 ^ 53 = 2 ^ (e + 52) := by
      rw [← zpow_natCast, ← zpow_add₀ two_ne_zero]
      congr 1
      omega
    apply le_max_of_le_left
    rwa [le_div_iff₀ (by positivity), hpow]

section Ratio

variable {a b : ℕ} {r : Magnitude}

def rounded (a b : ℕ) : Magnitude :=
  let e := exponentOf a b
  let m := divHalfEven (a <<< (-e).toNat) (b <<< e.toNat)
  if m = 1 <<< 53 then ⟨1 <<< 52, e + 1⟩ else ⟨m, e⟩

lemma ofRatio_eq (ha : a ≠ 0) (b : ℕ) :
    ofRatio a b = if 971 < (rounded a b).exp then none else some (rounded a b) := by
  rw [ofRatio, if_neg ha]
  rfl

lemma zero_rounds : Rounds 0 zero := by
  refine ⟨⟨by decide, by decide, by decide⟩, ?_⟩
  rw [value, zero, Nat.cast_zero, zero_mul, sub_zero, abs_zero]
  exact le_max_of_le_left (by norm_num)

variable (ha : a ≠ 0) (hb : b ≠ 0)

include ha hb

lemma rounded_spec : ∃ (e : ℤ) (m : ℕ), -1074 ≤ e ∧ m ≤ 2 ^ 53 ∧ |(m : ℚ) - a / b / 2 ^ e| ≤ 1 / 2 ∧
    (e = -1074 ∨ (2 : ℚ) ^ (e + 52) ≤ a / b) ∧
    (m < 2 ^ 53 ∧ rounded a b = ⟨m, e⟩ ∨ m = 2 ^ 53 ∧ rounded a b = ⟨2 ^ 52, e + 1⟩) := by
  obtain ⟨he, hu, hl⟩ := exponentOf_spec ha hb
  have hpos : 0 < b <<< (exponentOf a b).toNat := by
    rw [Nat.shiftLeft_eq]
    exact Nat.mul_pos (Nat.pos_of_ne_zero hb) (Nat.two_pow_pos _)
  have hm := abs_divHalfEven_sub (a <<< (-exponentOf a b).toNat) hpos
  rw [shift_div_shift_neg] at hm
  have hle : divHalfEven (a <<< (-exponentOf a b).toNat) (b <<< (exponentOf a b).toNat) ≤ 2 ^ 53 := by
    have hq : (a : ℚ) / b / 2 ^ exponentOf a b < 2 ^ 53 := by
      rw [div_lt_iff₀ (by positivity)]
      calc (a : ℚ) / b < 2 ^ (exponentOf a b + 53) := hu
        _ = 2 ^ 53 * 2 ^ exponentOf a b := by rw [zpow_add₀ two_ne_zero, mul_comm]; rfl
    have hlt : (divHalfEven (a <<< (-exponentOf a b).toNat) (b <<< (exponentOf a b).toNat) : ℚ) <
        2 ^ 53 + 1 := by
      linarith [(abs_le.mp hm).2]
    exact Nat.le_of_lt_succ (by exact_mod_cast hlt)
  refine ⟨exponentOf a b, _, he, hle, hm, hl, ?_⟩
  rcases hle.lt_or_eq with h | h
  · exact .inl ⟨h, by rw [rounded]; exact if_neg h.ne⟩
  · exact .inr ⟨h, by rw [rounded]; exact if_pos h⟩

lemma rounds_of_ofRatio (h : ofRatio a b = some r) : Rounds (a / b) r := by
  rw [ofRatio_eq ha, Option.ite_none_left_eq_some, Option.some_inj] at h
  obtain ⟨hx, rfl⟩ := h
  obtain ⟨e, m, he, hm, herr, hl, hform⟩ := rounded_spec ha hb
  have hv : (rounded a b).value = m * 2 ^ e := by
    rcases hform with ⟨-, hr⟩ | ⟨rfl, hr⟩
    · rw [hr, value]
    · rw [hr, value, zpow_add₀ two_ne_zero]
      norm_num
      ring
  constructor
  · rcases hform with ⟨hlt, hr⟩ | ⟨-, hr⟩ <;> rw [hr] at hx ⊢
    · exact ⟨hlt, he, not_lt.mp hx⟩
    · exact ⟨Nat.pow_lt_pow_right Nat.one_lt_two (by decide), by simp only; omega, not_lt.mp hx⟩
  · have hpos : (0 : ℚ) < 2 ^ e := by positivity
    have hfac : (m : ℚ) * 2 ^ e - a / b = (m - a / b / 2 ^ e) * 2 ^ e := by field_simp
    rw [hv, hfac, abs_mul, abs_of_pos hpos]
    calc |(m : ℚ) - a / b / 2 ^ e| * 2 ^ e ≤ 1 / 2 * 2 ^ e := by gcongr
      _ = 2 ^ (e - 1) := by rw [zpow_sub_one₀ two_ne_zero, one_div, mul_comm]
      _ ≤ max ((a : ℚ) / b / 2 ^ 53) (2 ^ (-1075 : ℤ)) := half_place_le hl

lemma exists_ofRatio (h : (a : ℚ) / b < limit) : ∃ r, ofRatio a b = some r := by
  rw [ofRatio_eq ha, if_neg]
  · exact ⟨_, rfl⟩
  intro hx
  refine absurd h (not_lt.mpr ?_)
  obtain ⟨e, m, he, hm, herr, hl, hform⟩ := rounded_spec ha hb
  -- rounding up to a power of two lifts the exponent, so there the ratio itself may stand lower
  rcases hform with ⟨-, hr⟩ | ⟨rfl, hr⟩ <;> rw [hr] at hx
  · have hq : (2 : ℚ) ^ (e + 52) ≤ a / b := hl.resolve_left (by simp only at hx; omega)
    calc limit ≤ 2 ^ (54 : ℤ) * 2 ^ (970 : ℤ) := by rw [limit]; gcongr; norm_num
      _ = 2 ^ (1024 : ℤ) := by rw [← zpow_add₀ two_ne_zero]; rfl
      _ ≤ 2 ^ (e + 52) := zpow_le_zpow_right₀ one_le_two (by simp only at hx; omega)
      _ ≤ a / b := hq
  · have hq : (2 ^ 53 - 1 / 2 : ℚ) ≤ a / b / 2 ^ e := by
      have := (abs_le.mp herr).2
      push_cast at this
      linarith
    rw [le_div_iff₀ (by positivity)] at hq
    have hpow : (2 : ℚ) ^ (971 : ℤ) ≤ 2 ^ e := zpow_le_zpow_right₀ one_le_two (by simp only at hx; omega)
    calc limit = (2 ^ 53 - 1 / 2) * 2 ^ (970 + 1 : ℤ) := by rw [limit, zpow_add_one₀ two_ne_zero]; ring
      _ ≤ (2 ^ 53 - 1 / 2) * 2 ^ e := mul_le_mul_of_nonneg_left hpow (by norm_num)
      _ ≤ a / b := hq

end Ratio

section Operations

structure RoundsTo (o : Option Magnitude) (q : ℚ) : Prop where
  rounds : ∀ r, o = some r → Rounds q r
  exists_of_lt : q < limit → ∃ r, o = some r

lemma ofRatio_roundsTo (a : ℕ) {b : ℕ} (hb : b ≠ 0) : RoundsTo (ofRatio a b) (a / b) := by
  by_cases ha : a = 0
  · subst ha
    have hz : ofRatio 0 b = some zero := if_pos rfl
    rw [hz, Nat.cast_zero, zero_div]
    refine ⟨?_, fun _ => ⟨zero, rfl⟩⟩
    rintro r ⟨⟩
    exact zero_rounds
  · exact ⟨fun r h => rounds_of_ofRatio ha hb h, exists_ofRatio ha hb⟩

variable (x : Magnitude) {y : Magnitude}

lemma shiftLeft_ne_zero {a : ℕ} (h : a ≠ 0) (n : ℕ) : a <<< n ≠ 0 := by
  rw [Nat.shiftLeft_eq]
  exact Nat.mul_ne_zero h (Nat.two_pow_pos n).ne'

lemma ofNat_roundsTo (n : ℕ) : RoundsTo (ofNat n) n := by
  have h := ofRatio_roundsTo n one_ne_zero
  rwa [Nat.cast_one, div_one] at h

lemma mul_roundsTo (y : Magnitude) : RoundsTo (x.mul y) (x.value * y.value) := by
  have h := ofRatio_roundsTo ((x.mant * y.mant) <<< (x.exp + y.exp).toNat)
    (shiftLeft_ne_zero one_ne_zero (-(x.exp + y.exp)).toNat)
  have hq : x.value * y.value = ((x.mant * y.mant : ℕ) : ℚ) / (1 : ℕ) * 2 ^ (x.exp + y.exp) := by
    rw [value, value, zpow_add₀ two_ne_zero]
    push_cast
    ring
  rwa [shift_div_shift, ← hq] at h

lemma div_roundsTo (hy : y.mant ≠ 0) : RoundsTo (x.div y) (x.value / y.value) := by
  have h := ofRatio_roundsTo (x.mant <<< (x.exp - y.exp).toNat)
    (shiftLeft_ne_zero hy (-(x.exp - y.exp)).toNat)
  have hq : x.value / y.value = (x.mant : ℚ) / y.mant * 2 ^ (x.exp - y.exp) := by
    rw [value, value, zpow_sub₀ two_ne_zero]
    field_simp
  rwa [shift_div_shift, ← hq] at h

end Operations

namespace Rounds

variable {q : ℚ} {r : Magnitude} (h : Rounds q r)

include h

lemma value_le (hq : 0 ≤ q) : r.value ≤ 2 * q + 1 := by
  have hm : max (q / 2 ^ 53) ((2 : ℚ) ^ (-1075 : ℤ)) ≤ q + 1 := by
    apply max_le
    · have : q / 2 ^ 53 ≤ q := div_le_self hq (by norm_num)
      linarith
    · have : (2 : ℚ) ^ (-1075 : ℤ) ≤ 1 := zpow_le_one_of_nonpos₀ one_le_two (by omega)
      linarith
  linarith [(abs_le.mp h.error).2]

variable (hq : 1 ≤ q)

include hq

lemma error_of_one_le : |r.value - q| ≤ q / 2 ^ 53 := by
  refine h.error.trans (max_le le_rfl ?_)
  calc (2 : ℚ) ^ (-1075 : ℤ) ≤ 2 ^ (-53 : ℤ) := zpow_le_zpow_right₀ one_le_two (by omega)
    _ = 1 / 2 ^ 53 := by norm_num
    _ ≤ q / 2 ^ 53 := by gcongr

lemma value_le_of_one_le : r.value ≤ q * (1 + 1 / 2 ^ 53) := by
  linarith [(abs_le.mp (h.error_of_one_le hq)).2]

lemma half_le_value : q / 2 ≤ r.value := by
  have : q / 2 ^ 53 ≤ q / 2 := by gcongr; norm_num
  linarith [(abs_le.mp (h.error_of_one_le hq)).1]

end Rounds

end Magnitude

end DumpImport
