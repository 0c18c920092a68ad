import DumpImport.Proofs.Binary64.Rounding

namespace DumpImport.Magnitude

lemma limit_eq : limit = (((2 ^ 54 - 1) * 2 ^ 970 : ℕ) : ℚ) := by
  rw [limit, zpow_ofNat, Nat.cast_mul, Nat.cast_sub Nat.one_le_two_pow, Nat.cast_pow,
    Nat.cast_pow, Nat.cast_ofNat, Nat.cast_one]

lemma natCast_lt_limit {n : ℕ} (h : n < (2 ^ 54 - 1) * 2 ^ 970) : (n : ℚ) < limit := by
  rw [limit_eq]
  exact_mod_cast h

lemma lt_limit_of_le {q : ℚ} (h : q ≤ 2 ^ 66) : q < limit := by
  refine h.trans_lt ?_
  have := natCast_lt_limit (n := 2 ^ 66) (by decide +kernel)
  exact_mod_cast this

lemma limit_lt : limit < 10 ^ (309 : ℤ) := by
  rw [limit_eq, zpow_ofNat]
  have : (2 ^ 54 - 1) * 2 ^ 970 < 10 ^ 309 := by decide +kernel
  exact_mod_cast this

lemma value_eq_zero {x : Magnitude} : x.value = 0 ↔ x.mant = 0 := by
  rw [value, mul_eq_zero, Nat.cast_eq_zero, or_iff_left (by positivity)]

lemma tenPow_roundsTo (n : ℕ) : RoundsTo (tenPow n) (10 ^ n) := by
  have h := ofNat_roundsTo (Nat.pow 10 n)
  rwa [Nat.pow_eq, Nat.cast_pow, Nat.cast_ofNat] at h

lemma one_le_ten_pow (n : ℕ) : (1 : ℚ) ≤ 10 ^ n := one_le_pow₀ (by norm_num)

lemma exists_tenPow {n : ℕ} (h : n ≤ tenTop) : ∃ t, tenPow n = some t ∧ Rounds (10 ^ n) t := by
  have hr := tenPow_roundsTo n
  have hlt : (10 : ℚ) ^ n < limit := by
    calc (10 : ℚ) ^ n ≤ 10 ^ tenTop := pow_le_pow_right₀ (by norm_num) h
      _ = ((10 ^ tenTop : ℕ) : ℚ) := by push_cast; rfl
      _ < limit := natCast_lt_limit (by decide +kernel)
  obtain ⟨t, ht⟩ := hr.exists_of_lt hlt
  exact ⟨t, ht, hr.rounds t ht⟩

lemma Rounds.mant_ne_zero {n : ℕ} {t : Magnitude} (h : Rounds (10 ^ n) t) : t.mant ≠ 0 := by
  intro hz
  have := h.half_le_value (one_le_ten_pow n)
  rw [value_eq_zero.mpr hz] at this
  linarith [one_le_ten_pow n]

section Sink

lemma exists_div {x t : Magnitude} {n : ℕ} (ht : Rounds (10 ^ n) t) (hx : x.value ≤ 2 ^ 65) :
    ∃ y, x.div t = some y ∧ Rounds (x.value / t.value) y := by
  have hr := div_roundsTo x ht.mant_ne_zero
  have hlow : 1 / 2 ≤ t.value := by linarith [ht.half_le_value (one_le_ten_pow n), one_le_ten_pow n]
  have hq : x.value / t.value ≤ 2 ^ 66 := by
    rw [div_le_iff₀ (by linarith)]
    nlinarith
  obtain ⟨y, hy⟩ := hr.exists_of_lt (lt_limit_of_le hq)
  exact ⟨y, hy, hr.rounds y hy⟩

lemma exists_sink (n : ℕ) {x : Magnitude} (hx : x.value ≤ 2 ^ 65) :
    ∃ y, sink n x = some y ∧ y.value ≤ 2 ^ 65 := by
  induction n generalizing x with
  | zero => exact ⟨x, rfl, hx⟩
  | succ n ih =>
    rw [sink]
    by_cases hz : x.mant = 0
    · exact ⟨x, if_pos hz, hx⟩
    · obtain ⟨t, ht, hrt⟩ := exists_tenPow le_rfl
      obtain ⟨y, hy, hry⟩ := exists_div hrt hx
      have hlow : (4 : ℚ) ≤ t.value := by
        have h8 : (10 : ℚ) ^ 1 ≤ 10 ^ tenTop := pow_le_pow_right₀ (by norm_num) (by decide)
        linarith [hrt.half_le_value (one_le_ten_pow tenTop)]
      have hq : x.value / t.value ≤ 2 ^ 63 := by
        rw [div_le_iff₀ (by linarith)]
        nlinarith
      have hv : y.value ≤ 2 ^ 65 := by
        linarith [hry.value_le (div_nonneg x.value_nonneg t.value_nonneg)]
      rw [if_neg hz, ht, Option.bind_some, hy, Option.bind_some]
      exact ih hv

end Sink

section ScaleTen

variable {x r : Magnitude} {e : ℤ}

lemma scaleTen_of_nonneg (hx : x.mant ≠ 0) (h : 0 ≤ e) :
    x.scaleTen e = if e ≤ tenTop then (tenPow e.toNat).bind x.mul else none := by
  rw [scaleTen, if_neg hx, if_pos h]

def rest (e : ℤ) : ℕ := (-e).toNat - tenTop * (((-e).toNat - 1) / tenTop)

lemma rest_le (h : e < 0) : rest e ≤ tenTop := by
  have hd := Nat.div_add_mod ((-e).toNat - 1) tenTop
  have hm := Nat.mod_lt ((-e).toNat - 1) (show 0 < tenTop by decide)
  rw [rest]
  omega

lemma scaleTen_of_neg (hx : x.mant ≠ 0) (h : e < 0) :
    x.scaleTen e = (sink (((-e).toNat - 1) / tenTop) x).bind fun y =>
      if y.mant = 0 then some y else (tenPow (rest e)).bind y.div := by
  rw [scaleTen, if_neg hx, if_neg (not_le.mpr h)]
  rfl

theorem exists_scaleTen (hx : x.value ≤ 2 ^ 65)
    (he : 0 ≤ e → e ≤ tenTop ∧ x.value * (10 ^ e * (1 + 1 / 2 ^ 53)) < limit) :
    ∃ r, x.scaleTen e = some r := by
  by_cases hz : x.mant = 0
  · exact ⟨x, if_pos hz⟩
  rcases lt_or_ge e 0 with hn | hn
  · obtain ⟨y, hy, hv⟩ := exists_sink (((-e).toNat - 1) / tenTop) hx
    rw [scaleTen_of_neg hz hn, hy, Option.bind_some]
    by_cases hy0 : y.mant = 0
    · exact ⟨y, if_pos hy0⟩
    · obtain ⟨t, ht, hrt⟩ := exists_tenPow (rest_le hn)
      obtain ⟨r, hr, -⟩ := exists_div hrt hv
      exact ⟨r, by rw [if_neg hy0, ht, Option.bind_some, hr]⟩
  · obtain ⟨htop, hlt⟩ := he hn
    have hk : e.toNat ≤ tenTop := by omega
    obtain ⟨t, ht, hrt⟩ := exists_tenPow hk
    have hpow : (10 : ℚ) ^ e = 10 ^ e.toNat := by rw [← zpow_natCast, Int.toNat_of_nonneg hn]
    have hprod : x.value * t.value < limit := by
      refine lt_of_le_of_lt ?_ hlt
      rw [hpow]
      exact mul_le_mul_of_nonneg_left (hrt.value_le_of_one_le (one_le_ten_pow _)) x.value_nonneg
    obtain ⟨r, hr⟩ := (mul_roundsTo x t).exists_of_lt hprod
    exact ⟨r, by rw [scaleTen_of_nonneg hz hn, if_pos htop, ht, Option.bind_some, hr]⟩

lemma valid_of_sink {n : ℕ} (hx : x.Valid) (h : sink n x = some r) : r.Valid := by
  induction n generalizing x with
  | zero =>
    cases h
    exact hx
  | succ n ih =>
    rw [sink] at h
    by_cases hz : x.mant = 0
    · rw [if_pos hz] at h
      cases h
      exact hx
    · rw [if_neg hz] at h
      obtain ⟨y, hy, hr⟩ := Option.bind_eq_some_iff.mp h
      obtain ⟨t, ht, hy⟩ := Option.bind_eq_some_iff.mp hy
      have hrt := (tenPow_roundsTo _).rounds t ht
      exact ih ((div_roundsTo x hrt.mant_ne_zero).rounds y hy).valid hr

theorem valid_of_scaleTen (hx : x.Valid) (h : x.scaleTen e = some r) : r.Valid := by
  by_cases hz : x.mant = 0
  · rw [scaleTen, if_pos hz] at h
    cases h
    exact hx
  rcases lt_or_ge e 0 with hn | hn
  · rw [scaleTen_of_neg hz hn] at h
    obtain ⟨y, hy, hr⟩ := Option.bind_eq_some_iff.mp h
    have hvy := valid_of_sink hx hy
    by_cases hy0 : y.mant = 0
    · rw [if_pos hy0] at hr
      cases hr
      exact hvy
    · rw [if_neg hy0] at hr
      obtain ⟨t, ht, hr⟩ := Option.bind_eq_some_iff.mp hr
      have hrt := (tenPow_roundsTo _).rounds t ht
      exact ((div_roundsTo y hrt.mant_ne_zero).rounds r hr).valid
  · rw [scaleTen_of_nonneg hz hn] at h
    by_cases htop : e ≤ tenTop
    · rw [if_pos htop] at h
      obtain ⟨t, -, hr⟩ := Option.bind_eq_some_iff.mp h
      exact ((mul_roundsTo x t).rounds r hr).valid
    · rw [if_neg htop] at h
      cases h

end ScaleTen

end DumpImport.Magnitude
