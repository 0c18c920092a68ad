import DumpImport.Time.Calendar
import Mathlib.Algebra.GroupWithZero.Nat
import Mathlib.Tactic.Common

namespace DumpImport.Time

lemma isLeap_iff (y : Int) : isLeap y = true ↔ y % 4 = 0 ∧ (y % 100 ≠ 0 ∨ y % 400 = 0) := by
  simp [isLeap]

def yearLength (y : Int) : Nat := if isLeap y then 366 else 365

lemma sum_monthLengths (y : Int) : (monthLengths (isLeap y)).sum = yearLength y := by
  cases h : isLeap y <;> simp [monthLengths, yearLength, h]

namespace Date

lemma yearStart_succ (y : Int) : yearStart (y + 1) = yearStart y + yearLength y := by
  have h := isLeap_iff y
  simp only [yearStart, yearLength]
  split <;> simp_all <;> omega

lemma yearStart_le {y z : Int} (h : y ≤ z) : yearStart y ≤ yearStart z := by
  simp only [yearStart]
  omega

lemma year_unique {y z n : Int} (hy : yearStart y ≤ n) (hy' : n < yearStart (y + 1))
    (hz : yearStart z ≤ n) (hz' : n < yearStart (z + 1)) : y = z := by
  rcases Int.lt_trichotomy y z with h | h | h
  · have := yearStart_le (show y + 1 ≤ z by omega)
    omega
  · exact h
  · have := yearStart_le (show z + 1 ≤ y by omega)
    omega

section Cycles

variable (q : Int) {c f o : Int} (hc : 0 ≤ c ∧ c ≤ 3) (hf : 0 ≤ f ∧ f ≤ 24) (ho : 0 ≤ o ∧ o ≤ 3)

include hc hf ho

lemma yearStart_cycles :
    yearStart (q * 400 + c * 100 + f * 4 + o + 1) = 146097 * q + 36524 * c + 1461 * f + 365 * o := by
  have h₄ : (q * 400 + c * 100 + f * 4 + o + 1 - 1) / 4 = q * 100 + c * 25 + f := by omega
  have h₁ : (q * 400 + c * 100 + f * 4 + o + 1 - 1) / 100 = q * 4 + c := by omega
  have h₀ : (q * 400 + c * 100 + f * 4 + o + 1 - 1) / 400 = q := by omega
  rw [yearStart, h₄, h₁, h₀]
  omega

lemma isLeap_cycles : isLeap (q * 400 + c * 100 + f * 4 + o + 1) = true ↔ o = 3 ∧ (f = 24 → c = 3) := by
  rw [isLeap_iff]
  omega

end Cycles

def ofYearAndDay (y : Int) (k : Nat) : Date :=
  ⟨y, (ofYearDay (monthLengths (isLeap y)) 1 k).1, (ofYearDay (monthLengths (isLeap y)) 1 k).2⟩

lemma exists_year (days : Int) : ∃ (y : Int) (k : Nat), k < yearLength y ∧
    yearStart y + k = days + epochStart ∧ ofDays days = ofYearAndDay y k := by
  let n := days + epochStart
  let c := min (n % 146097 / 36524) 3
  let r := n % 146097 - c * 36524
  let o := min (r % 1461 / 365) 3
  have hc : 0 ≤ c ∧ c ≤ 3 := by omega
  have hf : 0 ≤ r / 1461 ∧ r / 1461 ≤ 24 := by omega
  have ho : 0 ≤ o ∧ o ≤ 3 := by omega
  refine ⟨n / 146097 * 400 + c * 100 + r / 1461 * 4 + o + 1, (r % 1461 - o * 365).toNat, ?_, ?_, rfl⟩
  · -- A 366th day is left to the fourth of four years only, and at the end of a century to the fourth
    -- century only.
    have hl := isLeap_cycles (n / 146097) hc hf ho
    rw [yearLength]
    split <;> simp_all <;> omega
  · rw [yearStart_cycles _ hc hf ho]
    omega

lemma ofDays_of_year {y days : Int} {k : Nat} (hk : k < yearLength y)
    (h : yearStart y + k = days + epochStart) : ofDays days = ofYearAndDay y k := by
  obtain ⟨z, j, hj, hz, he⟩ := exists_year days
  have hy := yearStart_succ y
  have hs := yearStart_succ z
  obtain rfl : y = z :=
    year_unique (n := days + epochStart) (by omega) (by omega) (by omega) (by omega)
  obtain rfl : k = j := by omega
  exact he

section Places

/- The day `d` of the month at place `i` of the lengths, both from zero. -/
variable {ls : List Nat} {i d : Nat}

lemma exists_place {n : Nat} (h : n < ls.sum) : ∃ i d, d < ls.getD i 0 ∧ (ls.take i).sum + d = n := by
  induction ls generalizing n with
  | nil => simp at h
  | cons l ls ih =>
    rw [List.sum_cons] at h
    by_cases hn : n < l
    · exact ⟨0, n, by simpa using hn, by simp⟩
    · obtain ⟨i, d, hd, he⟩ := ih (n := n - l) (by omega)
      refine ⟨i + 1, d, by simpa using hd, ?_⟩
      rw [List.take_succ_cons, List.sum_cons]
      omega

lemma place_lt (h : d < ls.getD i 0) : (ls.take i).sum + d < ls.sum := by
  induction ls generalizing i with
  | nil => simp at h
  | cons l ls ih =>
    cases i with
    | zero =>
      simp only [List.getD_cons_zero] at h
      simp only [List.take_zero, List.sum_nil, List.sum_cons]
      omega
    | succ i =>
      have := ih (i := i) (by simpa using h)
      rw [List.take_succ_cons, List.sum_cons, List.sum_cons]
      omega

lemma ofYearDay_place (h : d < ls.getD i 0) (m : Nat) :
    ofYearDay ls m ((ls.take i).sum + d) = (m + i, d + 1) := by
  induction ls generalizing i m with
  | nil => simp at h
  | cons l ls ih =>
    cases i with
    | zero => simp_all [ofYearDay]
    | succ i =>
      rw [List.take_succ_cons, List.sum_cons, ofYearDay, if_neg (by omega)]
      have hl : l + (ls.take i).sum + d - l = (ls.take i).sum + d := by omega
      rw [hl, ih (by simpa using h), Nat.add_right_comm, Nat.add_assoc]

end Places

lemma monthStart_eq (d : Date) : d.monthStart = ((monthLengths (isLeap d.year)).take (d.month - 1)).sum := by
  rw [monthStart, List.sum_eq_foldl]

lemma valid_iff (d : Date) : d.Valid ↔
    1 ≤ d.month ∧ 1 ≤ d.day ∧ d.day - 1 < (monthLengths (isLeap d.year)).getD (d.month - 1) 0 := by
  have hl : (monthLengths (isLeap d.year)).length = 12 := rfl
  have hm (h : 12 ≤ d.month - 1) : (monthLengths (isLeap d.year)).getD (d.month - 1) 0 = 0 := by
    rw [List.getD_eq_getElem?_getD, List.getElem?_eq_none (hl ▸ h), Option.getD_none]
  rw [Valid]
  omega

lemma exists_ofDays (n : Int) : ∃ y i d, d < (monthLengths (isLeap y)).getD i 0 ∧
    yearStart y + ((monthLengths (isLeap y)).take i).sum + d = n + epochStart ∧
    ofDays n = ⟨y, 1 + i, d + 1⟩ := by
  obtain ⟨y, k, hk, hn, he⟩ := exists_year n
  rw [← sum_monthLengths] at hk
  obtain ⟨i, d, hd, rfl⟩ := exists_place hk
  refine ⟨y, i, d, hd, by omega, ?_⟩
  rw [he, ofYearAndDay, ofYearDay_place hd]

theorem valid_ofDays (n : Int) : (ofDays n).Valid := by
  obtain ⟨y, i, d, hd, -, he⟩ := exists_ofDays n
  rw [he, valid_iff]
  simpa [Nat.add_sub_cancel_left] using hd

theorem toDays_ofDays (n : Int) : (ofDays n).toDays = n := by
  obtain ⟨y, i, d, -, hn, he⟩ := exists_ofDays n
  rw [he, toDays, monthStart_eq]
  simp only [Nat.add_sub_cancel_left]
  omega

theorem ofDays_toDays {d : Date} (h : d.Valid) : ofDays d.toDays = d := by
  obtain ⟨hm, hd, hp⟩ := (valid_iff d).mp h
  have hk := place_lt hp
  rw [sum_monthLengths, ← monthStart_eq] at hk
  rw [ofDays_of_year hk (by rw [toDays]; omega), ofYearAndDay, monthStart_eq, ofYearDay_place hp]
  congr <;> omega

end Date

end DumpImport.Time
