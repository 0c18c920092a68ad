import DumpImport.Binary64.Text
import DumpImport.Proofs.Text.Utf8
import Mathlib.Algebra.Group.Nat.Defs

namespace DumpImport.Text

open Utf8

def IsDigits (ds : List Char) : Prop := ds ≠ [] ∧ ∀ c ∈ ds, c.isDigit = true

def byteOf (c : Char) : UInt8 := UInt8.ofNat c.toNat

lemma isDigit_bounds {c : Char} (h : c.isDigit = true) : 0x30 ≤ c.toNat ∧ c.toNat ≤ 0x39 := by
  simp only [Char.isDigit, Bool.and_eq_true, decide_eq_true_eq, ge_iff_le, UInt32.le_iff_toNat_le] at h
  exact h

lemma encode_ascii {cs : List Char} (h : ∀ c ∈ cs, c.toNat < 0x80) : encode cs = cs.map byteOf := by
  induction cs with
  | nil => rfl
  | cons c cs ih =>
    rw [encode_cons_ascii (h c (by simp)), ih (fun x hx => h x (by simp [hx])), List.map_cons, byteOf]

lemma encode_digits {ds : List Char} (h : ∀ c ∈ ds, c.isDigit = true) :
    encode ds = ds.map byteOf := by
  apply encode_ascii
  intro c hc
  have := isDigit_bounds (h c hc)
  omega

lemma toNat_byteOf {c : Char} (h : c.toNat < 0x80) : (byteOf c).toNat = c.toNat := by
  rw [byteOf, UInt8.toNat_ofNat', Nat.mod_eq_of_lt (by omega)]

lemma isDigits_decimalDigits (n : Nat) : IsDigits (decimalDigits n) :=
  ⟨Nat.toDigits_ne_nil, fun _ hc => Nat.isDigit_of_mem_toDigits (by decide) (by decide) hc⟩

lemma decimalDigits_zero_cons {n : Nat} {ds : List Char} (h : decimalDigits n = '0' :: ds) :
    ds = [] := by
  induction n using Nat.strongRecOn generalizing ds with
  | ind n ih =>
    rw [decimalDigits, Nat.toDigits_eq_if (by decide)] at h
    split at h
    · simp only [List.cons.injEq] at h
      exact h.2.symm
    · cases hd : decimalDigits (n / 10) with
      | nil => exact absurd hd Nat.toDigits_ne_nil
      | cons c cs =>
        rw [decimalDigits] at hd
        rw [hd, List.cons_append, List.cons.injEq] at h
        obtain ⟨rfl, -⟩ := h
        have hn := ih (n / 10) (by omega) hd
        have hv : Nat.ofDigitChars 10 (Nat.toDigits 10 (n / 10)) 0 = n / 10 := Nat.ofDigitChars_ten_toDigits
        rw [hd, hn] at hv
        simp [Nat.ofDigitChars] at hv
        omega

lemma ofDigitChars_lt {ds : List Char} (hd : ∀ c ∈ ds, c.isDigit = true) (n : Nat) :
    Nat.ofDigitChars 10 ds n < (n + 1) * 10 ^ ds.length := by
  induction ds generalizing n with
  | nil => simp
  | cons c cs ih =>
    rw [List.forall_mem_cons] at hd
    have hc := isDigit_bounds hd.1
    have hz : '0'.toNat = 0x30 := rfl
    rw [Nat.ofDigitChars_cons, List.length_cons, Nat.pow_succ']
    calc Nat.ofDigitChars 10 cs (10 * n + (c.toNat - '0'.toNat))
        < (10 * n + (c.toNat - '0'.toNat) + 1) * 10 ^ cs.length := ih hd.2 _
      _ ≤ ((n + 1) * 10) * 10 ^ cs.length := Nat.mul_le_mul_right _ (by omega)
      _ = (n + 1) * (10 * 10 ^ cs.length) := Nat.mul_assoc _ _ _

/-- Digits, perhaps a fraction, perhaps an exponent with its sign. -/
def IsNumeral (t : List Char) : Prop :=
  ∃ w f x, t = w ++ (f ++ x) ∧ IsDigits w ∧ (f = [] ∨ ∃ ds, IsDigits ds ∧ f = '.' :: ds) ∧
    (x = [] ∨ ∃ s ds, (s = '+' ∨ s = '-') ∧ IsDigits ds ∧ x = 'e' :: s :: ds)

lemma IsDigits.cons {d : Char} {ds : List Char} (h : IsDigits (d :: ds)) : d.isDigit = true :=
  h.2 d (by simp)

lemma isDigits_append {ds es : List Char} (hd : ∀ c ∈ ds, c.isDigit = true) (he : IsDigits es) :
    IsDigits (ds ++ es) := by
  refine ⟨by simp [he.1], ?_⟩
  intro c hc
  rcases List.mem_append.mp hc with hc | hc
  · exact hd c hc
  · exact he.2 c hc

lemma isDigit_of_mem_replicate {n : Nat} {c : Char} (h : c ∈ List.replicate n '0') :
    c.isDigit = true := by
  rw [List.eq_of_mem_replicate h]
  rfl

lemma isNumeral_scientific {ds : List Char} (h : IsDigits ds) (top : Int) :
    IsNumeral (Magnitude.Decimal.scientific ds top) := by
  have hx : ∃ s es, (s = '+' ∨ s = '-') ∧ IsDigits es ∧
      'e' :: (if top < 0 then '-' else '+') :: decimalDigits top.natAbs = 'e' :: s :: es :=
    ⟨_, _, by split <;> simp, isDigits_decimalDigits _, rfl⟩
  match ds, h with
  | [d], h => exact ⟨[d], [], _, rfl, h, .inl rfl, .inr hx⟩
  | d :: e :: r, h =>
    refine ⟨[d], '.' :: e :: r, _, rfl, ⟨by simp, by simpa using h.cons⟩, .inr ⟨e :: r, ?_, rfl⟩, .inr hx⟩
    exact ⟨by simp, fun c hc => h.2 c (List.mem_cons_of_mem _ hc)⟩

lemma isNumeral_positional {ds : List Char} (h : IsDigits ds) (top : Int) :
    IsNumeral (Magnitude.Decimal.positional ds top) := by
  rw [Magnitude.Decimal.positional]
  split
  · exact ⟨['0'], '.' :: (List.replicate (-top - 1).toNat '0' ++ ds), [], by simp, ⟨by simp, by simp⟩,
      .inr ⟨_, isDigits_append (fun _ => isDigit_of_mem_replicate) h, rfl⟩, .inl rfl⟩
  · have hw : IsDigits (ds.take (top.toNat + 1) ++ List.replicate (top.toNat + 1 - ds.length) '0') := by
      refine ⟨by simp [h.1], ?_⟩
      intro c hc
      rcases List.mem_append.mp hc with hc | hc
      · exact h.2 c (List.mem_of_mem_take hc)
      · exact isDigit_of_mem_replicate hc
    have hf : IsDigits (if (ds.drop (top.toNat + 1)).isEmpty then ['0'] else ds.drop (top.toNat + 1)) := by
      split
      · exact ⟨by simp, by simp⟩
      · rename_i he
        exact ⟨by simpa using he, fun c hc => h.2 c (List.mem_of_mem_drop hc)⟩
    exact ⟨_, _, [], by simp, hw, .inr ⟨_, hf, rfl⟩, .inl rfl⟩

lemma isNumeral_text (s : PointStyle) (d : Magnitude.Decimal) : IsNumeral (d.text s) := by
  rw [Magnitude.Decimal.text]
  split
  · exact isNumeral_scientific (isDigits_decimalDigits _) _
  · exact isNumeral_positional (isDigits_decimalDigits _) _

end DumpImport.Text
