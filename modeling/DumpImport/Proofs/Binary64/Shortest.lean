import DumpImport.Binary64.Shortest
import DumpImport.Proofs.Binary64.Scaling

namespace DumpImport.Magnitude

def Decimal.value (d : Decimal) : ℚ := d.digits * 10 ^ d.exp

lemma Decimal.value_pos {d : Decimal} : 0 < d.value ↔ d.digits ≠ 0 := by
  rw [value, mul_pos_iff_of_pos_right (by positivity), Nat.cast_pos, Nat.pos_iff_ne_zero]

section Compare

variable {a b : ℕ} {p q : ℤ}

lemma pow_toNat_eq (x : ℚ) (hx : 0 < x) (e : ℤ) : x ^ e.toNat = x ^ e * x ^ (-e).toNat := by
  rw [← pow_toNat_div, div_mul_cancel₀ _ (by positivity)]

lemma exists_compareTen : ∃ c : ℚ, 0 < c ∧
    (((a * Nat.pow 10 (-q).toNat) <<< p.toNat : ℕ) : ℚ) = a * 2 ^ p * c ∧
    (((b * Nat.pow 10 q.toNat) <<< (-p).toNat : ℕ) : ℚ) = b * 10 ^ q * c := by
  refine ⟨2 ^ (-p).toNat * 10 ^ (-q).toNat, by positivity, ?_, ?_⟩
  · rw [Nat.shiftLeft_eq, Nat.pow_eq]
    push_cast
    rw [pow_toNat_eq 2 two_pos p]
    ring
  · rw [Nat.shiftLeft_eq, Nat.pow_eq]
    push_cast
    rw [pow_toNat_eq 10 (by norm_num) q]
    ring

lemma le_of_compareTen (h : compareTen a p b q ≠ .gt) : (a : ℚ) * 2 ^ p ≤ b * 10 ^ q := by
  obtain ⟨c, hc, hl, hr⟩ := exists_compareTen (a := a) (b := b) (p := p) (q := q)
  rw [compareTen, Ne, compare_gt_iff_gt, not_lt, ← Nat.cast_le (α := ℚ), hl, hr] at h
  exact le_of_mul_le_mul_right h hc

lemma ge_of_compareTen (h : compareTen a p b q ≠ .lt) : (b : ℚ) * 10 ^ q ≤ a * 2 ^ p := by
  obtain ⟨c, hc, hl, hr⟩ := exists_compareTen (a := a) (b := b) (p := p) (q := q)
  rw [compareTen, Ne, compare_lt_iff_lt, not_lt, ← Nat.cast_le (α := ℚ), hl, hr] at h
  exact le_of_mul_le_mul_right h hc

end Compare

variable {x : Magnitude} {d : Decimal}

def upper (x : Magnitude) : ℚ := (4 * x.mant + 2) * 2 ^ (x.exp - 2)

lemma bounds_of_readsBack (h : x.readsBack d = true) (hx : x.mant ≠ 0) : 0 < d.value ∧ d.value ≤ x.upper := by
  simp only [readsBack, Bool.and_eq_true, Bool.or_eq_true, beq_iff_eq] at h
  obtain ⟨hlow, hhigh⟩ := h
  constructor
  · have hne : compareTen (4 * x.mant - x.quartersBelow) (x.exp - 2) d.digits d.exp ≠ .gt := by
      rcases hlow with h | ⟨h, -⟩ <;> rw [h] <;> exact fun hn => nomatch hn
    have hq : x.quartersBelow ≤ 2 := by rw [quartersBelow]; split_ifs <;> omega
    have hpos : 0 < 4 * x.mant - x.quartersBelow := by omega
    refine lt_of_lt_of_le ?_ (le_of_compareTen hne)
    positivity
  · have hne : compareTen (4 * x.mant + 2) (x.exp - 2) d.digits d.exp ≠ .lt := by
      rcases hhigh with h | ⟨h, -⟩ <;> rw [h] <;> exact fun hn => nomatch hn
    have hle := ge_of_compareTen hne
    push_cast at hle
    exact hle

lemma readsBack_of_either {first second : Decimal}
    (h : (if x.readsBack first then some first else if x.readsBack second then some second else none) =
      some d) :
    x.readsBack d = true := by
  by_cases hf : x.readsBack first = true
  · rw [if_pos hf] at h
    cases h
    exact hf
  · rw [if_neg hf, Option.ite_none_right_eq_some] at h
    obtain ⟨hs, hd⟩ := h
    cases hd
    exact hs

lemma readsBack_of_onGrid {k : ℤ} (h : x.onGrid k = some d) : x.readsBack d = true :=
  readsBack_of_either h

lemma Decimal.reduce_value (n : ℕ) (d : Decimal) : (d.reduce n).value = d.value := by
  induction n generalizing d with
  | zero => rfl
  | succ n ih =>
    rw [reduce]
    by_cases h : d.digits % 10 = 0
    · rw [if_pos h, ih, value, value, zpow_add_one₀ (by norm_num)]
      have hd : d.digits / 10 * 10 = d.digits := Nat.div_mul_cancel (Nat.dvd_of_mod_eq_zero h)
      have hc : ((d.digits / 10 : ℕ) : ℚ) * 10 = d.digits := by exact_mod_cast hd
      rw [← hc]
      ring
    · rw [if_neg h]

theorem shortest_spec (hx : x.mant ≠ 0) :
    x.shortest = ⟨0, 20⟩ ∨ 0 < x.shortest.value ∧ x.shortest.value ≤ x.upper := by
  rw [shortest, if_neg hx]
  simp only
  cases hf : ((List.range 17).map fun (i : Nat) => x.onGrid (x.leadingTen - i)).findSome? id with
  -- 17 digits are always enough, but no proof needs to know
  | none => exact .inl rfl
  | some d =>
    obtain ⟨o, ho, hd⟩ := List.exists_of_findSome?_eq_some hf
    obtain ⟨i, -, rfl⟩ := List.mem_map.mp ho
    right
    rw [Option.getD_some, Decimal.reduce_value]
    exact bounds_of_readsBack (readsBack_of_onGrid hd) hx

end DumpImport.Magnitude
