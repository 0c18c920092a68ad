import DumpImport.Json.Printer
import DumpImport.Json.Reader
import DumpImport.Proofs.Text.Digits
import Mathlib.Algebra.Group.Nat.Defs
import Mathlib.Data.List.TakeDrop

/-! A written whole number is read back. Of any other written number the reader takes all or fails,
and which of the two does not depend on what stands behind it. -/

namespace DumpImport.Json

open Text Text.Utf8

def Ends (rest : Bytes) : Prop := ∀ b r, rest = b :: r → b = 0x2C ∨ b = 0x5D ∨ b = 0x7D

lemma ends_nil : Ends [] := by
  intro b r h
  cases h

lemma ends_cons {b : UInt8} (h : b = 0x2C ∨ b = 0x5D ∨ b = 0x7D) (r : Bytes) : Ends (b :: r) := by
  intro c t he
  cases he
  exact h

/-- Before such an end the reader takes `t` whole and gives `o`, or fails. -/
def Gives {α : Type} (read : Reader α) (t : Bytes) : Option α → Prop
  | some a => ∀ rest, Ends rest → read (t ++ rest) = .ok (a, rest)
  | none => ∀ rest, Ends rest → ∃ f, read (t ++ rest) = .error f

section Digits

lemma isDigit_byteOf {c : Char} (h : c.isDigit = true) : Json.isDigit (byteOf c) = true := by
  have hc := isDigit_bounds h
  have hb := toNat_byteOf (c := c) (by omega)
  simp only [Json.isDigit, Bool.and_eq_true, decide_eq_true_eq, UInt8.le_iff_toNat_le, hb]
  exact hc

lemma digitOf_byteOf {c : Char} (h : c.isDigit = true) : digitOf (byteOf c) = c.toNat - '0'.toNat := by
  have hc := isDigit_bounds h
  rw [digitOf, toNat_byteOf (by omega)]
  rfl

lemma not_isDigit_of_ends {b : UInt8} {r : Bytes} (h : Ends (b :: r)) : Json.isDigit b = false := by
  rcases h b r rfl with rfl | rfl | rfl <;> decide

lemma span_digits {ds : List Char} (hd : ∀ c ∈ ds, c.isDigit = true) {rest : Bytes}
    (hr : ∀ b r, rest = b :: r → Json.isDigit b = false) :
    (encode ds ++ rest).span Json.isDigit = (encode ds, rest) := by
  have ht : ∀ b ∈ encode ds, Json.isDigit b = true := by
    rw [encode_digits hd]
    intro b hb
    obtain ⟨c, hc, rfl⟩ := List.mem_map.mp hb
    exact isDigit_byteOf (hd c hc)
  have hs : rest.takeWhile Json.isDigit = [] ∧ rest.dropWhile Json.isDigit = rest := by
    cases rest with
    | nil => simp
    | cons b r => simp [hr b r rfl]
  rw [List.span_eq_takeWhile_dropWhile, List.takeWhile_append_of_pos ht, List.dropWhile_append_of_pos ht,
    hs.1, hs.2, List.append_nil]

lemma encode_digit_cons {c : Char} (h : c.isDigit = true) (cs : List Char) :
    encode (c :: cs) = byteOf c :: encode cs := by
  have hc := isDigit_bounds h
  exact encode_cons_ascii (by omega) cs

lemma mul_ten_add_digitOf {c : Char} (h : c.isDigit = true) (n : Nat) :
    n * 10 + digitOf (byteOf c) = 10 * n + (c.toNat - '0'.toNat) := by
  rw [digitOf_byteOf h, Nat.mul_comm]

lemma mul_pow_le_ofDigitChars (c : Char) (cs : List Char) (n : Nat) :
    10 ^ cs.length * (10 * n + (c.toNat - '0'.toNat)) ≤ Nat.ofDigitChars 10 (c :: cs) n := by
  rw [Nat.ofDigitChars_cons, Nat.ofDigitChars_eq_ofDigitChars_zero]
  exact Nat.le_add_right _ _

lemma le_ofDigitChars (c : Char) (cs : List Char) (n : Nat) :
    10 * n + (c.toNat - '0'.toNat) ≤ Nat.ofDigitChars 10 (c :: cs) n :=
  Nat.le_trans (Nat.le_mul_of_pos_left _ (Nat.pow_pos (by decide))) (mul_pow_le_ofDigitChars c cs n)

lemma whole_digits {ds : List Char} (hd : ∀ c ∈ ds, c.isDigit = true) {n : Nat}
    (h : Nat.ofDigitChars 10 ds n < 0x10000000000000000) :
    Scaled.whole (encode ds) n = ⟨Nat.ofDigitChars 10 ds n, 0⟩ := by
  induction ds generalizing n with
  | nil => rfl
  | cons c cs ih =>
    rw [List.forall_mem_cons] at hd
    have hlt := Nat.lt_of_le_of_lt (le_ofDigitChars c cs n) h
    rw [encode_digit_cons hd.1, Scaled.whole, mul_ten_add_digitOf hd.1, if_pos hlt, Nat.ofDigitChars_cons]
    exact ih hd.2 (by rwa [Nat.ofDigitChars_cons] at h)

lemma exponentValue_digits {ds : List Char} (hd : ∀ c ∈ ds, c.isDigit = true) {n : Nat}
    (h : Nat.ofDigitChars 10 ds n < 0x80000000) :
    exponentValue (encode ds) n = .ok (Nat.ofDigitChars 10 ds n) := by
  induction ds generalizing n with
  | nil => rfl
  | cons c cs ih =>
    rw [List.forall_mem_cons] at hd
    have hlt := Nat.lt_of_le_of_lt (le_ofDigitChars c cs n) h
    rw [encode_digit_cons hd.1, exponentValue, mul_ten_add_digitOf hd.1, if_pos hlt, Nat.ofDigitChars_cons]
    exact ih hd.2 (by rwa [Nat.ofDigitChars_cons] at h)

end Digits

section Doubles

lemma scaled_gives (negative : Bool) (x : Scaled) : ∃ o, Gives (x.number negative) [] o := by
  cases h : (Magnitude.ofNat x.significand).bind (·.scaleTen x.exp) with
  | none => exact ⟨none, fun rest _ => ⟨_, by rw [Scaled.number, List.nil_append, h]⟩⟩
  | some m => exact ⟨some (signedDouble negative m), fun rest _ => by rw [Scaled.number, List.nil_append, h]⟩

lemma Gives.of_eq {α : Type} {read read' : Reader α} {t t' : Bytes} {o : Option α} (h : Gives read t o)
    (he : ∀ rest, Ends rest → read' (t' ++ rest) = read (t ++ rest)) : Gives read' t' o := by
  cases o with
  | none =>
    intro rest hr
    rw [he rest hr]
    exact h rest hr
  | some a =>
    intro rest hr
    rw [he rest hr]
    exact h rest hr

lemma wholeNumber_gives (negative : Bool) (x : Scaled) : ∃ o, Gives (wholeNumber negative x) [] o := by
  obtain ⟨o, ho⟩ := scaled_gives negative x
  cases hi : Integer.ofInt? (if negative then -(x.significand : Int) else x.significand) with
  | none => exact ⟨o, ho.of_eq fun rest _ => by simp only [wholeNumber, hi]⟩
  | some i =>
    by_cases hc : negative ∧ x.significand = 0 ∨ x.exp ≠ 0
    · exact ⟨o, ho.of_eq fun rest _ => by simp only [wholeNumber, hi, if_pos hc]⟩
    · refine ⟨some (.int i), fun rest _ => ?_⟩
      simp only [wholeNumber, hi, if_neg hc, List.nil_append]

lemma encode_digits_cons {ds : List Char} (hd : IsDigits ds) :
    ∃ b r, encode ds = b :: r ∧ Json.isDigit b = true := by
  cases ds with
  | nil => exact absurd rfl hd.1
  | cons d ds =>
    have hc := isDigit_bounds hd.cons
    exact ⟨_, _, encode_cons_ascii (by omega) ds, isDigit_byteOf hd.cons⟩

lemma span_before {ds : List Char} (hd : IsDigits ds) {rest : Bytes} (hr : Ends rest) :
    (encode ds ++ rest).span Json.isDigit = (encode ds, rest) := by
  apply span_digits hd.2
  rintro b r rfl
  exact not_isDigit_of_ends hr

lemma exponent_digits (negative : Bool) (x : Scaled) (down : Bool) {ds : List Char} (hd : IsDigits ds)
    {rest : Bytes} (hr : Ends rest) :
    exponent negative x ((if down then 0x2D else 0x2B) :: (encode ds ++ rest)) =
      match exponentValue (encode ds) 0 with
      | .ok e => Scaled.number negative ⟨x.significand, if down then x.exp - e else x.exp + e⟩ rest
      | .error unread =>
        if x.significand ≠ 0 ∧ !down then .error ⟨.numberOutOfRange, unread + rest.length⟩
        else .ok (signedDouble negative .zero, rest) := by
  have hs := span_before hd hr
  obtain ⟨b, r, he, hb⟩ := encode_digits_cons hd
  rw [he, List.cons_append] at hs ⊢
  cases hv : exponentValue (b :: r) 0 with
  | error unread => cases down <;> simp [-List.span_eq_takeWhile_dropWhile, exponent, hb, hs, hv]
  | ok e => cases down <;> simp [-List.span_eq_takeWhile_dropWhile, exponent, hb, hs, hv]

lemma exponent_gives (negative : Bool) (x : Scaled) {s : Char} (hs : s = '+' ∨ s = '-') {ds : List Char}
    (hd : IsDigits ds) : ∃ o, Gives (exponent negative x) (encode (s :: ds)) o := by
  obtain ⟨down, hb⟩ : ∃ down : Bool, encode (s :: ds) = (if down then 0x2D else 0x2B) :: encode ds := by
    rcases hs with rfl | rfl
    · exact ⟨false, encode_cons_ascii (by decide) ds⟩
    · exact ⟨true, encode_cons_ascii (by decide) ds⟩
  have hx := fun (rest : Bytes) (hr : Ends rest) => exponent_digits negative x down hd hr
  rw [hb]
  cases he : exponentValue (encode ds) 0 with
  | ok e =>
    obtain ⟨o, ho⟩ := scaled_gives negative ⟨x.significand, if down then x.exp - e else x.exp + e⟩
    refine ⟨o, ho.of_eq fun rest hr => ?_⟩
    rw [List.cons_append, hx rest hr, he]
    rfl
  | error unread =>
    by_cases hc : x.significand ≠ 0 ∧ !down
    · exact ⟨none, fun rest hr => ⟨_, by rw [List.cons_append, hx rest hr, he]; exact if_pos hc⟩⟩
    · refine ⟨some (signedDouble negative .zero), fun rest hr => ?_⟩
      rw [List.cons_append, hx rest hr, he]
      exact if_neg hc

lemma decimals_ends (negative : Bool) (x : Scaled) {ds : List Char} (hd : IsDigits ds) {rest : Bytes}
    (hr : Ends rest) :
    decimals negative x (encode ds ++ rest) = (x.fraction (encode ds)).number negative rest := by
  obtain ⟨b, r, hb, -⟩ := encode_digits_cons hd
  have hsp := span_before hd hr
  rw [decimals, hsp, hb]
  cases rest with
  | nil => rfl
  | cons c t =>
    have hl : isExponentLetter c = false := by rcases hr c t rfl with rfl | rfl | rfl <;> decide
    simp [hl]

lemma decimals_exponent (negative : Bool) (x : Scaled) {ds : List Char} (hd : IsDigits ds) (t : Bytes) :
    decimals negative x (encode ds ++ 0x65 :: t) = exponent negative (x.fraction (encode ds)) t := by
  obtain ⟨b, r, hb, -⟩ := encode_digits_cons hd
  have hsp : (encode ds ++ 0x65 :: t).span Json.isDigit = (encode ds, 0x65 :: t) := by
    apply span_digits hd.2
    rintro c t ⟨⟩
    decide
  rw [decimals, hsp, hb]
  rfl

lemma decimals_gives (negative : Bool) (x : Scaled) {ds : List Char} (hd : IsDigits ds) {e : List Char}
    (he : e = [] ∨ ∃ s es, (s = '+' ∨ s = '-') ∧ IsDigits es ∧ e = 'e' :: s :: es) :
    ∃ o, Gives (decimals negative x) (encode (ds ++ e)) o := by
  rcases he with rfl | ⟨s, es, hs, hes, rfl⟩
  · obtain ⟨o, ho⟩ := scaled_gives negative (x.fraction (encode ds))
    refine ⟨o, ho.of_eq fun rest hr => ?_⟩
    rw [List.append_nil, decimals_ends negative x hd hr]
    rfl
  · obtain ⟨o, ho⟩ := exponent_gives negative (x.fraction (encode ds)) hs hes
    refine ⟨o, ho.of_eq fun rest hr => ?_⟩
    have hx : encode ('e' :: s :: es) = 0x65 :: encode (s :: es) := encode_cons_ascii (by decide) _
    rw [encode_append, List.append_assoc, hx, List.cons_append, decimals_exponent negative x hd]

end Doubles

section Numbers

def afterWhole (negative : Bool) (x : Scaled) : Reader Number := fun rest =>
  match rest with
  | [] => wholeNumber negative x []
  | c :: t =>
    if c = 0x2E then decimals negative x t
    else if isExponentLetter c then exponent negative x t
    else wholeNumber negative x (c :: t)

lemma number_digits (negative : Bool) {w : List Char} (hw : IsDigits w)
    (h0 : ∀ ds, w = '0' :: ds → ds = []) {rest : Bytes}
    (hr : ∀ b r, rest = b :: r → Json.isDigit b = false) :
    number negative (encode w ++ rest) = afterWhole negative (Scaled.whole (encode w) 0) rest := by
  have hs := span_digits hw.2 hr
  cases w with
  | nil => exact absurd rfl hw.1
  | cons d ds =>
    have hd := isDigit_bounds hw.cons
    have hb := isDigit_byteOf hw.cons
    rw [encode_cons_ascii (by omega), ← byteOf, List.cons_append] at hs ⊢
    by_cases hz : byteOf d = 0x30
    · obtain rfl : d = '0' := by
        apply Char.toNat_inj.mp
        rw [← toNat_byteOf (c := d) (by omega), hz]
        rfl
      obtain rfl := h0 ds rfl
      cases rest with
      | nil => rfl
      | cons c t =>
        have hc := hr c t rfl
        rw [hz] at hb ⊢
        simp [number, afterWhole, hb, hc, encode_nil]
    · cases rest with
      | nil => simp only [number, afterWhole, hb, hz, if_true, if_false, hs]
      | cons c t => simp only [number, afterWhole, hb, hz, if_true, if_false, hs, false_and]

lemma number_leadingZero (negative : Bool) {d : Char} (hd : d.isDigit = true) (ds : List Char)
    (rest : Bytes) :
    ∃ f, number negative (encode ('0' :: d :: ds) ++ rest) = .error f := by
  have hb := isDigit_byteOf hd
  have hd' := isDigit_bounds hd
  rw [encode_cons_ascii (by decide), encode_cons_ascii (by omega), ← byteOf, ← byteOf, List.cons_append,
    List.cons_append]
  have hz : byteOf '0' = 0x30 := rfl
  have h0 : Json.isDigit 0x30 = true := rfl
  exact ⟨.next .invalidNumber (byteOf d :: (encode ds ++ rest)), by simp [number, hz, hb, h0]⟩

lemma afterWhole_ends (negative : Bool) (x : Scaled) {rest : Bytes} (hr : Ends rest) :
    afterWhole negative x rest = wholeNumber negative x rest := by
  cases rest with
  | nil => rfl
  | cons c t => rcases hr c t rfl with rfl | rfl | rfl <;> rfl

section Whole

variable (negative : Bool) {w : List Char} (hw : IsDigits w) (h0 : ∀ ds, w = '0' :: ds → ds = [])

include hw h0

lemma number_ends {rest : Bytes} (hr : Ends rest) :
    number negative (encode w ++ rest) = wholeNumber negative (Scaled.whole (encode w) 0) rest := by
  rw [number_digits negative hw h0, afterWhole_ends _ _ hr]
  rintro b r rfl
  exact not_isDigit_of_ends hr

lemma number_point (t : Bytes) :
    number negative (encode w ++ 0x2E :: t) = decimals negative (Scaled.whole (encode w) 0) t := by
  rw [number_digits negative hw h0]
  · rfl
  · rintro b r ⟨⟩
    decide

lemma number_exponent (t : Bytes) :
    number negative (encode w ++ 0x65 :: t) = exponent negative (Scaled.whole (encode w) 0) t := by
  rw [number_digits negative hw h0]
  · rfl
  · rintro b r ⟨⟩
    decide

end Whole

lemma number_gives (negative : Bool) {t : List Char} (ht : IsNumeral t) :
    ∃ o, Gives (number negative) (encode t) o := by
  obtain ⟨w, f, x, rfl, hw, hf, hx⟩ := ht
  by_cases h0 : ∀ ds, w = '0' :: ds → ds = []
  · rcases hf with rfl | ⟨ds, hds, rfl⟩
    · rcases hx with rfl | ⟨s, es, hs, hes, rfl⟩
      · obtain ⟨o, ho⟩ := wholeNumber_gives negative (Scaled.whole (encode w) 0)
        refine ⟨o, ho.of_eq fun rest hr => ?_⟩
        rw [List.nil_append, List.append_nil, List.nil_append, number_ends negative hw h0 hr]
      · obtain ⟨o, ho⟩ := exponent_gives negative (Scaled.whole (encode w) 0) hs hes
        refine ⟨o, ho.of_eq fun rest hr => ?_⟩
        have he : encode ('e' :: s :: es) = 0x65 :: encode (s :: es) := encode_cons_ascii (by decide) _
        rw [List.nil_append, encode_append, List.append_assoc, he, List.cons_append,
          number_exponent negative hw h0]
    · obtain ⟨o, ho⟩ := decimals_gives negative (Scaled.whole (encode w) 0) hds hx
      refine ⟨o, ho.of_eq fun rest hr => ?_⟩
      have he : encode ('.' :: ds ++ x) = 0x2E :: encode (ds ++ x) := encode_cons_ascii (by decide) _
      rw [encode_append, List.append_assoc, he, List.cons_append, number_point negative hw h0]
  · push Not at h0
    obtain ⟨ds, rfl, hne⟩ := h0
    cases ds with
    | nil => exact absurd rfl hne
    | cons d ds => exact ⟨none, fun rest _ => number_leadingZero negative (hw.2 d (by simp)) _ rest⟩

lemma number_int (i : Integer) {negative : Bool} (h : negative = true ↔ i.val < 0) :
    Gives (number negative) (encode (decimalDigits i.val.natAbs)) (some (.int i)) := by
  intro rest hr
  have hd := isDigits_decimalDigits i.val.natAbs
  have hv : Nat.ofDigitChars 10 (decimalDigits i.val.natAbs) 0 = i.val.natAbs := Nat.ofDigitChars_ten_toDigits
  have hb : i.val.natAbs < 0x10000000000000000 := by
    have := i.lower
    have := i.upper
    omega
  rw [number_ends negative hd (fun _ => decimalDigits_zero_cons) hr, whole_digits hd.2 (by omega), hv]
  have hi : (if negative then -(i.val.natAbs : Int) else i.val.natAbs) = i.val := by
    cases negative
    · have : ¬ i.val < 0 := fun hn => Bool.false_ne_true (h.mpr hn)
      simp only [Bool.false_eq_true, if_false]
      omega
    · have := h.mp rfl
      simp only [if_true]
      omega
  have hz : ¬ (negative = true ∧ i.val.natAbs = 0 ∨ (0 : Int) ≠ 0) := by
    rintro (⟨hn, hz⟩ | hz)
    · have := h.mp hn
      omega
    · exact hz rfl
  simp only [wholeNumber, hi, Integer.ofInt?_val, if_neg hz]

end Numbers

end DumpImport.Json
