import DumpImport.Proofs.Binary64.Shortest
import DumpImport.Proofs.Json.Values
import DumpImport.Proofs.Json.Numbers

/-! The text of a double can be read again: its digits are no further from it than half of its last
place, and near the limit there are only three doubles for which that is not enough. -/

namespace DumpImport.Json

open Text Text.Utf8 Magnitude

namespace Scaled

def value (s : Scaled) : ℚ := s.significand * 10 ^ s.exp

lemma fraction_spec {cs : List Char} (hd : ∀ c ∈ cs, c.isDigit = true) {s : Scaled}
    (hs : s.significand < 2 ^ 64) :
    (s.fraction (encode cs)).significand < 2 ^ 64 ∧ (s.fraction (encode cs)).exp ≤ s.exp ∧
      (s.fraction (encode cs)).value ≤ Nat.ofDigitChars 10 cs s.significand * 10 ^ (s.exp - cs.length) := by
  obtain ⟨n, e⟩ := s
  induction cs generalizing n e with
  | nil =>
    refine ⟨hs, le_rfl, le_of_eq ?_⟩
    rw [List.length_nil, Nat.cast_zero, sub_zero]
    rfl
  | cons c cs ih =>
    rw [List.forall_mem_cons] at hd
    have hexp : e - 1 - cs.length = e - (c :: cs).length := by
      rw [List.length_cons]
      push_cast
      ring
    rw [encode_digit_cons hd.1, fraction, mul_ten_add_digitOf hd.1]
    by_cases hfit : 10 * n + (c.toNat - '0'.toNat) < 0x10000000000000000
    · rw [if_pos hfit]
      obtain ⟨hsig, hle, hval⟩ := ih hd.2 _ (e - 1) hfit
      refine ⟨hsig, hle.trans (by simp only; omega), ?_⟩
      rw [Nat.ofDigitChars_cons, ← hexp]
      exact hval
    · rw [if_neg hfit]
      refine ⟨hs, le_rfl, ?_⟩
      have hle : n * 10 ^ (c :: cs).length ≤ Nat.ofDigitChars 10 (c :: cs) n := by
        refine le_trans ?_ (mul_pow_le_ofDigitChars c cs n)
        rw [List.length_cons, pow_succ]
        nlinarith [Nat.zero_le (10 ^ cs.length * (c.toNat - '0'.toNat))]
      calc (n : ℚ) * 10 ^ e = (n * 10 ^ (c :: cs).length : ℕ) * 10 ^ (e - (c :: cs).length) := by
            rw [zpow_sub₀ (by norm_num), zpow_natCast]
            push_cast
            field_simp
        _ ≤ Nat.ofDigitChars 10 (c :: cs) n * 10 ^ (e - (c :: cs).length) := by gcongr

/-- Small enough that rounding twice on the way does not lead out of range. -/
structure InRange (s : Scaled) : Prop where
  significand_lt : s.significand < 2 ^ 64
  value_lt : 0 < s.exp → s.value * (1 + 1 / 2 ^ 53) ^ 2 < limit

lemma exists_scaleTen_of_inRange {s : Scaled} (h : s.InRange) :
    ∃ m, (Magnitude.ofNat s.significand).bind (·.scaleTen s.exp) = some m := by
  obtain ⟨n, e⟩ := s
  have hn : n < 2 ^ 64 := h.significand_lt
  have hr := ofNat_roundsTo n
  have hn' : (n : ℚ) ≤ 2 ^ 64 - 1 := by
    have : (n + 1 : ℚ) ≤ 2 ^ 64 := by exact_mod_cast hn
    linarith
  obtain ⟨y, hy⟩ := hr.exists_of_lt (lt_limit_of_le (by linarith))
  have hry := hr.rounds y hy
  have hvy : y.value ≤ 2 ^ 65 := by linarith [hry.value_le (Nat.cast_nonneg n)]
  rw [hy, Option.bind_some]
  by_cases hz : n = 0
  · subst hz
    obtain rfl : zero = y := Option.some.inj hy
    exact ⟨zero, rfl⟩
  refine exists_scaleTen hvy fun he => ?_
  have hn1 : (1 : ℚ) ≤ n := by exact_mod_cast Nat.one_le_iff_ne_zero.mpr hz
  have hval : (n : ℚ) * 10 ^ e * (1 + 1 / 2 ^ 53) ^ 2 < limit := by
    rcases he.eq_or_lt with rfl | he
    · refine lt_limit_of_le ?_
      rw [zpow_zero, mul_one]
      norm_num
      linarith
    · exact h.value_lt he
  constructor
  · have hpow : (10 : ℚ) ^ e < 10 ^ (309 : ℤ) := by
      refine lt_trans ?_ limit_lt
      refine lt_of_le_of_lt ?_ hval
      rw [mul_right_comm]
      refine le_mul_of_one_le_left (by positivity) ?_
      nlinarith
    have := (zpow_lt_zpow_iff_right₀ (by norm_num : (1 : ℚ) < 10)).mp hpow
    exact Int.lt_add_one_iff.mp this
  · refine lt_of_le_of_lt ?_ hval
    calc y.value * (10 ^ e * (1 + 1 / 2 ^ 53))
        ≤ (n : ℚ) * (1 + 1 / 2 ^ 53) * (10 ^ e * (1 + 1 / 2 ^ 53)) := by
          gcongr
          exact hry.value_le_of_one_le hn1
      _ = (n : ℚ) * 10 ^ e * (1 + 1 / 2 ^ 53) ^ 2 := by ring

lemma InRange.exists_number {s : Scaled} (h : s.InRange) (negative : Bool) :
    ∃ n, ∀ rest, s.number negative rest = .ok (n, rest) := by
  obtain ⟨m, hm⟩ := exists_scaleTen_of_inRange h
  exact ⟨signedDouble negative m, fun rest => by rw [Scaled.number, hm]⟩

end Scaled

section Text

variable (negative : Bool) {c : Char} {cs : List Char} {top : ℤ} {rest : Bytes}

lemma whole_digit {c : Char} (hc : c.isDigit = true) :
    Scaled.whole (encode [c]) 0 = ⟨c.toNat - '0'.toNat, 0⟩ := by
  have hb := isDigit_bounds hc
  have hv : Nat.ofDigitChars 10 [c] 0 = c.toNat - '0'.toNat := by
    rw [Nat.ofDigitChars_cons, Nat.ofDigitChars_nil, Nat.mul_zero, Nat.zero_add]
  have hlt : Nat.ofDigitChars 10 [c] 0 < 0x10000000000000000 := by
    rw [hv]
    omega
  rw [whole_digits (List.forall_mem_singleton.mpr hc) hlt, hv]

def mantissa (c : Char) (cs : List Char) : Scaled :=
  Scaled.fraction (encode cs) ⟨c.toNat - '0'.toNat, 0⟩

lemma number_scientific (hd : IsDigits (c :: cs)) :
    number negative (encode (Decimal.scientific (c :: cs) top) ++ rest) =
      exponent negative (mantissa c cs)
        ((if decide (top < 0) then 0x2D else 0x2B) :: (encode (decimalDigits top.natAbs) ++ rest)) := by
  have hc := hd.cons
  have hw : IsDigits [c] := ⟨by simp, List.forall_mem_singleton.mpr hc⟩
  have h0 : ∀ ds, [c] = '0' :: ds → ds = [] := by
    rintro ds ⟨⟩
    rfl
  have hx : encode ('e' :: (if top < 0 then '-' else '+') :: decimalDigits top.natAbs) =
      0x65 :: (if decide (top < 0) then 0x2D else 0x2B) :: encode (decimalDigits top.natAbs) := by
    rw [encode_cons_ascii (by decide)]
    by_cases ht : top < 0
    · rw [if_pos ht, if_pos (decide_eq_true ht), encode_cons_ascii (by decide)]
      rfl
    · rw [if_neg ht, if_neg (by simp [ht]), encode_cons_ascii (by decide)]
      rfl
  cases cs with
  | nil =>
    have ht : Decimal.scientific [c] top =
        [c] ++ 'e' :: (if top < 0 then '-' else '+') :: decimalDigits top.natAbs := rfl
    rw [ht, encode_append, List.append_assoc, hx, List.cons_append,
      number_exponent negative hw h0, whole_digit hc]
    rfl
  | cons d ds =>
    have hds : IsDigits (d :: ds) := ⟨by simp, fun x hx => hd.2 x (List.mem_cons_of_mem _ hx)⟩
    have ht : Decimal.scientific (c :: d :: ds) top =
        [c] ++ ('.' ::
          ((d :: ds) ++ 'e' :: (if top < 0 then '-' else '+') :: decimalDigits top.natAbs)) := rfl
    have hp (t : List Char) : encode ('.' :: t) = 0x2E :: encode t := encode_cons_ascii (by decide) t
    rw [ht, encode_append, List.append_assoc, hp, List.cons_append,
      number_point negative hw h0, encode_append, List.append_assoc, hx, List.cons_append,
      decimals_exponent negative _ hds, whole_digit hc]
    rfl

lemma mantissa_spec (hd : IsDigits (c :: cs)) :
    (mantissa c cs).significand < 2 ^ 64 ∧ (mantissa c cs).exp ≤ 0 ∧
      (mantissa c cs).value ≤ Nat.ofDigitChars 10 (c :: cs) 0 * 10 ^ (-(cs.length : ℤ)) := by
  have hc := isDigit_bounds hd.cons
  have hs : c.toNat - '0'.toNat < 2 ^ 64 := by omega
  have hcs : ∀ x ∈ cs, x.isDigit = true := fun x hx => hd.2 x (List.mem_cons_of_mem _ hx)
  have h := Scaled.fraction_spec hcs (s := ⟨c.toNat - '0'.toNat, 0⟩) hs
  rw [Nat.ofDigitChars_cons, Nat.mul_zero, Nat.zero_add]
  rw [zero_sub] at h
  exact h

lemma exists_number_scientific (hd : IsDigits (c :: cs))
    (h : 0 ≤ top → top < 0x80000000 ∧
      Nat.ofDigitChars 10 (c :: cs) 0 * 10 ^ (top - cs.length) * (1 + 1 / 2 ^ 53) ^ 2 < limit)
    (hr : Ends rest) :
    ∃ n, number negative (encode (Decimal.scientific (c :: cs) top) ++ rest) = .ok (n, rest) := by
  obtain ⟨hsig, hexp, hval⟩ := mantissa_spec hd
  have hk := isDigits_decimalDigits top.natAbs
  rw [number_scientific negative hd, exponent_digits negative _ _ hk hr]
  by_cases ht : top < 0
  · rw [decide_eq_true ht]
    cases exponentValue (encode (decimalDigits top.natAbs)) 0 with
    | ok e =>
      have hin : Scaled.InRange ⟨(mantissa c cs).significand, (mantissa c cs).exp - e⟩ := by
        refine ⟨hsig, fun hpos => ?_⟩
        simp only at hpos
        omega
      obtain ⟨n, hn⟩ := hin.exists_number negative
      exact ⟨n, hn rest⟩
    -- a negative exponent that does not fit is read as a zero
    | error unread => exact ⟨_, if_neg (by simp)⟩
  · obtain ⟨htop, hlt⟩ := h (not_lt.mp ht)
    have hv : Nat.ofDigitChars 10 (decimalDigits top.natAbs) 0 = top.natAbs := Nat.ofDigitChars_ten_toDigits
    rw [decide_eq_false ht, exponentValue_digits hk.2 (by omega), hv]
    have hin : Scaled.InRange ⟨(mantissa c cs).significand, (mantissa c cs).exp + top.natAbs⟩ := by
      refine ⟨hsig, fun _ => lt_of_le_of_lt ?_ hlt⟩
      gcongr
      have habs : (top.natAbs : ℤ) = top := by omega
      rw [Scaled.value, habs, zpow_add₀ (by norm_num), ← mul_assoc]
      calc (mantissa c cs).value * 10 ^ top
          ≤ Nat.ofDigitChars 10 (c :: cs) 0 * 10 ^ (-(cs.length : ℤ)) * 10 ^ top := by gcongr
        _ = Nat.ofDigitChars 10 (c :: cs) 0 * 10 ^ (top - cs.length) := by
            rw [mul_assoc, ← zpow_add₀ (by norm_num), neg_add_eq_sub]
    obtain ⟨n, hn⟩ := hin.exists_number negative
    exact ⟨n, hn rest⟩

lemma exists_decimals {s : Scaled} (hs : s.significand < 2 ^ 64) (he : s.exp ≤ 0) {ds : List Char}
    (hd : IsDigits ds) (hr : Ends rest) :
    ∃ n, decimals negative s (encode ds ++ rest) = .ok (n, rest) := by
  obtain ⟨hsig, hexp, -⟩ := Scaled.fraction_spec hd.2 hs
  have hin : (s.fraction (encode ds)).InRange := ⟨hsig, fun hpos => by omega⟩
  obtain ⟨n, hn⟩ := hin.exists_number negative
  exact ⟨n, by rw [decimals_ends negative s hd hr, hn]⟩

lemma exists_number_positional {ds : List Char} (hd : IsDigits ds) (h0 : ∀ es, ds ≠ '0' :: es)
    (htop : top < 16) (hr : Ends rest) :
    ∃ n, number negative (encode (Decimal.positional ds top) ++ rest) = .ok (n, rest) := by
  have hp (t : List Char) : encode ('.' :: t) = 0x2E :: encode t := encode_cons_ascii (by decide) t
  rw [Decimal.positional]
  by_cases ht : top < 0
  · have hf : IsDigits (List.replicate (-top - 1).toNat '0' ++ ds) :=
      isDigits_append (fun _ => isDigit_of_mem_replicate) hd
    have hw : IsDigits ['0'] := ⟨by simp, by simp⟩
    have h0' : ∀ es, ['0'] = '0' :: es → es = [] := by
      rintro es ⟨⟩
      rfl
    have hform : '0' :: '.' :: List.replicate (-top - 1).toNat '0' ++ ds =
        ['0'] ++ '.' :: (List.replicate (-top - 1).toNat '0' ++ ds) := rfl
    rw [if_pos ht, hform, encode_append, List.append_assoc, hp, List.cons_append,
      number_point negative hw h0', whole_digit rfl]
    exact exists_decimals negative (by decide) le_rfl hf hr
  · rw [if_neg ht]
    simp only
    set w := ds.take (top.toNat + 1) ++ List.replicate (top.toNat + 1 - ds.length) '0' with hwdef
    have hlen : w.length = top.toNat + 1 := by
      rw [hwdef, List.length_append, List.length_take, List.length_replicate]
      omega
    have hw : IsDigits w := by
      refine ⟨List.ne_nil_of_length_eq_add_one hlen, fun c hc => ?_⟩
      rcases List.mem_append.mp hc with hc | hc
      · exact hd.2 c (List.mem_of_mem_take hc)
      · exact isDigit_of_mem_replicate hc
    have h0' : ∀ es, w = '0' :: es → es = [] := by
      intro es hes
      obtain ⟨d, r, hdr⟩ := List.exists_cons_of_ne_nil hd.1
      rw [hwdef, hdr, List.take_succ_cons, List.cons_append] at hes
      obtain ⟨rfl, -⟩ := List.cons.inj hes
      exact absurd hdr (h0 r)
    have hf : IsDigits (if (ds.drop (top.toNat + 1)).isEmpty then ['0'] else ds.drop (top.toNat + 1)) := by
      by_cases he : (ds.drop (top.toNat + 1)).isEmpty
      · rw [if_pos he]
        exact ⟨by simp, by simp⟩
      · rw [if_neg he]
        exact ⟨by simpa using he, fun c hc => hd.2 c (List.mem_of_mem_drop hc)⟩
    have hlt : Nat.ofDigitChars 10 w 0 < 0x10000000000000000 := by
      refine (ofDigitChars_lt hw.2 0).trans_le ?_
      have hpow : 10 ^ w.length ≤ 10 ^ 16 := Nat.pow_le_pow_right (by decide) (by omega)
      omega
    rw [encode_append, List.append_assoc, hp, List.cons_append, number_point negative hw h0',
      whole_digits hw.2 hlt]
    exact exists_decimals negative hlt le_rfl hf hr

end Text

section Doubles

variable {x : Magnitude}

lemma upper_mul_lt (hx : x.Valid) (h : x.mant + 4 ≤ 2 ^ 53 ∨ x.exp < 971) :
    x.upper * (1 + 1 / 2 ^ 53) ^ 2 < limit := by
  have hup : x.upper ≤ (2 ^ 55 - 14) * 2 ^ (969 : ℤ) := by
    rw [upper]
    rcases h with h | h
    · have hm : (x.mant : ℚ) + 4 ≤ 2 ^ 53 := by exact_mod_cast h
      have he : (2 : ℚ) ^ (x.exp - 2) ≤ 2 ^ (969 : ℤ) :=
        zpow_le_zpow_right₀ one_le_two (by linarith [hx.exp_le])
      exact mul_le_mul (by linarith) he (by positivity) (by norm_num)
    · have hm : (x.mant : ℚ) ≤ 2 ^ 53 := by exact_mod_cast hx.mant_lt.le
      have he : (2 : ℚ) ^ (x.exp - 2) ≤ 2 ^ (968 : ℤ) := zpow_le_zpow_right₀ one_le_two (by linarith)
      calc (4 * x.mant + 2 : ℚ) * 2 ^ (x.exp - 2) ≤ (2 ^ 55 + 2) * 2 ^ (968 : ℤ) :=
            mul_le_mul (by linarith) he (by positivity) (by norm_num)
        _ ≤ (2 ^ 55 - 14) * 2 * 2 ^ (968 : ℤ) := mul_le_mul_of_nonneg_right (by norm_num) (by positivity)
        _ = (2 ^ 55 - 14) * 2 ^ (968 + 1 : ℤ) := by rw [zpow_add_one₀ two_ne_zero]; ring
  calc x.upper * (1 + 1 / 2 ^ 53) ^ 2 ≤ (2 ^ 55 - 14) * 2 ^ (969 : ℤ) * (1 + 1 / 2 ^ 53) ^ 2 := by gcongr
    _ = (2 ^ 55 - 14) * (1 + 1 / 2 ^ 53) ^ 2 * 2 ^ (969 : ℤ) := by ring
    _ < (2 ^ 54 - 1) * 2 * 2 ^ (969 : ℤ) := mul_lt_mul_of_pos_right (by norm_num) (by positivity)
    _ = (2 ^ 54 - 1) * 2 ^ (969 + 1 : ℤ) := by rw [zpow_add_one₀ two_ne_zero]; ring
    _ = limit := rfl

lemma exists_reread_largest (negative : Bool) {k : ℕ} (hk : k < 3) :
    ∃ n, (Number.double ⟨negative, ⟨2 ^ 53 - 1 - k, 971⟩⟩).reread? = some n := by
  rw [← Option.isSome_iff_exists]
  have h : ∀ b : Bool, ∀ k < 3, (Number.double ⟨b, ⟨2 ^ 53 - 1 - k, 971⟩⟩).reread?.isSome = true := by
    decide +kernel
  exact h negative k hk

lemma top_lt {d : Decimal} (hd : d.value < limit) {c : Char} {cs : List Char}
    (hc : decimalDigits d.digits = c :: cs) (hpos : d.digits ≠ 0) : d.exp + cs.length < 309 := by
  have hlen : 10 ^ cs.length ≤ d.digits := by
    rcases Nat.eq_zero_or_pos cs.length with hz | hz
    · rw [hz]
      exact Nat.one_le_iff_ne_zero.mpr hpos
    · by_contra hlt
      have := (Nat.length_toDigits_le_iff (by decide) hz).mpr (not_le.mp hlt)
      rw [← decimalDigits, hc, List.length_cons] at this
      omega
  have hpow : (10 : ℚ) ^ (d.exp + cs.length) < 10 ^ (309 : ℤ) := by
    refine lt_of_le_of_lt ?_ (hd.trans limit_lt)
    rw [zpow_add₀ (by norm_num), zpow_natCast, mul_comm, Decimal.value]
    gcongr
    exact_mod_cast hlen
  exact (zpow_lt_zpow_iff_right₀ (by norm_num : (1 : ℚ) < 10)).mp hpow

lemma exists_number_text (negative : Bool) {d : Decimal} (hpos : d.digits ≠ 0)
    (hlt : d.value * (1 + 1 / 2 ^ 53) ^ 2 < limit) {rest : Bytes} (hr : Ends rest) :
    ∃ n, number negative (encode (d.text Binary64.pointStyle) ++ rest) = .ok (n, rest) := by
  have hds := isDigits_decimalDigits d.digits
  have hv : Nat.ofDigitChars 10 (decimalDigits d.digits) 0 = d.digits := Nat.ofDigitChars_ten_toDigits
  have hval : d.value < limit := by
    refine lt_of_le_of_lt ?_ hlt
    exact le_mul_of_one_le_right (Decimal.value_pos.mpr hpos).le (by norm_num)
  rw [Decimal.text]
  cases hc : decimalDigits d.digits with
  | nil => exact absurd hc hds.1
  | cons c cs =>
    rw [hc] at hds hv
    have htop : d.exp + (c :: cs).length - 1 = d.exp + cs.length := by
      rw [List.length_cons]
      push_cast
      ring
    simp only [htop]
    have hbound := top_lt hval hc hpos
    by_cases hs : d.exp + cs.length < Binary64.pointStyle.low ∨ Binary64.pointStyle.high ≤ d.exp + cs.length
    · rw [if_pos hs]
      refine exists_number_scientific negative hds (fun _ => ⟨by omega, ?_⟩) hr
      rw [hv, add_sub_cancel_right]
      exact hlt
    · rw [if_neg hs]
      have hhigh : d.exp + cs.length < 16 := not_le.mp fun h => hs (.inr h)
      refine exists_number_positional negative hds ?_ hhigh hr
      rintro es hes
      rw [← hc] at hes
      rw [decimalDigits_zero_cons hes] at hes
      rw [hes] at hc
      rw [← hc] at hv
      exact hpos (by rw [← hv]; rfl)

theorem exists_reread {b : Binary64} (hb : b.mag.Valid) : ∃ n, (Number.double b).reread? = some n := by
  obtain ⟨negative, x⟩ := b
  have of_shortest (d : Decimal) (hd : x.shortest = d)
      (h : ∃ n r, number negative (encode (d.text Binary64.pointStyle)) = .ok (n, r)) :
      ∃ n, (Number.double ⟨negative, x⟩).reread? = some n := by
    obtain ⟨n, r, hn⟩ := h
    exact ⟨n, by simp only [Number.reread?, hd, hn]⟩
  by_cases hz : x.mant = 0
  · refine of_shortest ⟨0, 0⟩ (if_pos hz) ?_
    cases negative <;> exact ⟨_, _, rfl⟩
  by_cases hlarge : x.mant + 4 ≤ 2 ^ 53 ∨ x.exp < 971
  · rcases shortest_spec hz with hs | ⟨hpos, hle⟩
    · refine of_shortest ⟨0, 20⟩ hs ?_
      cases negative <;> exact ⟨_, _, rfl⟩
    · have hlt : x.shortest.value * (1 + 1 / 2 ^ 53) ^ 2 < limit := by
        refine lt_of_le_of_lt ?_ (upper_mul_lt hb hlarge)
        gcongr
      obtain ⟨n, hn⟩ := exists_number_text negative (Decimal.value_pos.mp hpos) hlt ends_nil
      rw [List.append_nil] at hn
      exact of_shortest _ rfl ⟨n, [], hn⟩
  -- no room for two roundings is left by these three, so they are read again one by one
  · obtain ⟨m, e⟩ := x
    have hm : m < 2 ^ 53 := hb.mant_lt
    have he : e ≤ 971 := hb.exp_le
    rw [not_or, not_le, not_lt] at hlarge
    obtain ⟨hm', he'⟩ := hlarge
    obtain rfl : e = 971 := le_antisymm he he'
    obtain ⟨k, hk, rfl⟩ : ∃ k < 3, m = 2 ^ 53 - 1 - k :=
      ⟨2 ^ 53 - 1 - m, by simp only at hm'; omega, by omega⟩
    exact exists_reread_largest negative hk

end Doubles

end DumpImport.Json
