import DumpImport.Cipher.Block
import DumpImport.Proofs.Text.Hex
import DumpImport.Text.Uuid
import Mathlib.Data.List.Forall2

namespace DumpImport.Text

/-- An `x` stands for any digit, a `y` for one that marks the variant, and all else for itself. -/
def fits (place c : Char) : Bool :=
  if place = 'x' then c ∈ "0123456789abcdef".toList else if place = 'y' then c ∈ "89ab".toList else c = place

def HasForm (form cs : List Char) : Prop := List.Forall₂ (fun place c => fits place c = true) form cs

def IsRandomId (s : String) : Prop := HasForm "xxxxxxxx-xxxx-4xxx-yxxx-xxxxxxxxxxxx".toList s.toList

section Forms

lemma HasForm.append {form form' cs cs' : List Char} (h : HasForm form cs) (h' : HasForm form' cs') :
    HasForm (form ++ form') (cs ++ cs') := List.rel_append h h'

lemma HasForm.separated {form cs : List Char} (h : HasForm form cs) : HasForm ('-' :: form) ('-' :: cs) :=
  .cons (by decide) h

lemma fits_lowerDigit : ∀ n < 16, fits 'x' (Hex.lowerDigit n) = true := by decide

lemma hasForm_lower (bs : Bytes) : HasForm (bs.flatMap fun _ => ['x', 'x']) (bs.flatMap Hex.lower) := by
  induction bs with
  | nil => exact .nil
  | cons b bs ih =>
    have hb := b.toNat_lt
    exact .cons (fits_lowerDigit _ (by omega)) (.cons (fits_lowerDigit _ (by omega)) ih)

end Forms

section Marks

def versioned (b : UInt8) : UInt8 := b &&& 0x0F ||| 0x40

def variant (b : UInt8) : UInt8 := b &&& 0x3F ||| 0x80

lemma versioned_facts (b : UInt8) : Hex.lowerDigit ((versioned b).toNat / 16) = '4' ∧
    versioned b &&& 0x0F = b &&& 0x0F := by
  have hall : ∀ n < 256, Hex.lowerDigit ((versioned (.ofNat n)).toNat / 16) = '4' ∧
      versioned (.ofNat n) &&& 0x0F = .ofNat n &&& 0x0F := by
    decide +kernel
  rw [← b.ofNat_toNat]
  exact hall b.toNat b.toNat_lt

lemma variant_facts (b : UInt8) : fits 'y' (Hex.lowerDigit ((variant b).toNat / 16)) = true ∧
    variant b &&& 0x3F = b &&& 0x3F := by
  have hall : ∀ n < 256, fits 'y' (Hex.lowerDigit ((variant (.ofNat n)).toNat / 16)) = true ∧
      variant (.ofNat n) &&& 0x3F = .ofNat n &&& 0x3F := by
    decide +kernel
  rw [← b.ofNat_toNat]
  exact hall b.toNat b.toNat_lt

open Cipher

variable (b : Block)

def marked : Bytes := (b.bytes.modify 6 versioned).modify 8 variant

def unmarked : Bytes := (b.bytes.modify 6 (· &&& 0x0F)).modify 8 (· &&& 0x3F)

lemma toList_uuid : (uuid b.bytes).toList =
    b.w.bytes.flatMap Hex.lower ++ '-' :: ([b.x.a, b.x.b].flatMap Hex.lower ++
      '-' :: ([versioned b.x.c, b.x.d].flatMap Hex.lower ++ '-' ::
        ([variant b.y.a, b.y.b].flatMap Hex.lower ++
          '-' :: [b.y.c, b.y.d, b.z.a, b.z.b, b.z.c, b.z.d].flatMap Hex.lower))) := by
  rw [uuid, String.toList_ofList]
  rfl

theorem isRandomId_uuid : IsRandomId (uuid b.bytes) := by
  have hversion : HasForm ['4', 'x', 'x', 'x'] ([versioned b.x.c, b.x.d].flatMap Hex.lower) := by
    refine .cons ?_ (.cons (fits_lowerDigit _ (by omega)) (hasForm_lower [b.x.d]))
    rw [(versioned_facts b.x.c).1]
    decide
  have hvariant : HasForm ['y', 'x', 'x', 'x'] ([variant b.y.a, b.y.b].flatMap Hex.lower) :=
    .cons (variant_facts b.y.a).1 (.cons (fits_lowerDigit _ (by omega)) (hasForm_lower [b.y.b]))
  have hnode := hasForm_lower [b.y.c, b.y.d, b.z.a, b.z.b, b.z.c, b.z.d]
  rw [IsRandomId, toList_uuid]
  exact (hasForm_lower b.w.bytes).append <| .separated <|
    (hasForm_lower [b.x.a, b.x.b]).append <| .separated <|
    hversion.append <| .separated <| hvariant.append <| .separated hnode

lemma filter_uuid : (uuid b.bytes).toList.filter (· ≠ '-') = (marked b).flatMap Hex.lower := by
  have hdigits (bs : Bytes) : (bs.flatMap Hex.lower).filter (· ≠ '-') = bs.flatMap Hex.lower := by
    rw [List.filter_eq_self]
    intro c hc
    rw [decide_eq_true_iff]
    rintro rfl
    exact Hex.notMem_flatMap_lower bs hc
  have hmark (cs : List Char) : ('-' :: cs).filter (· ≠ '-') = cs.filter (· ≠ '-') := rfl
  rw [toList_uuid]
  simp only [List.filter_append, hmark, hdigits, ← List.flatMap_append]
  rfl

variable {b} {c : Block}

theorem unmarked_eq_of_uuid (h : uuid b.bytes = uuid c.bytes) : unmarked b = unmarked c := by
  have hdigits : (marked b).flatMap Hex.lower = (marked c).flatMap Hex.lower := by
    rw [← filter_uuid, h, filter_uuid]
  have hkept (b : Block) : unmarked b = ((marked b).modify 6 (· &&& 0x0F)).modify 8 (· &&& 0x3F) := by
    change _ = b.w.bytes ++ [b.x.a, b.x.b, versioned b.x.c &&& 0x0F, b.x.d] ++
      [variant b.y.a &&& 0x3F, b.y.b, b.y.c, b.y.d] ++ b.z.bytes
    rw [(versioned_facts b.x.c).2, (variant_facts b.y.a).2]
    rfl
  rw [hkept, hkept, Hex.flatMap_lower_injective hdigits]

end Marks

end DumpImport.Text
