import DumpImport.Cipher.Counter
import Mathlib.Algebra.Group.Nat.Defs
import Mathlib.Tactic.Common

/-! Blocks as numbers modulo `2 ^ 128`, and counter mode byte by byte: where a byte stands decides
alone what it is combined with. -/

namespace DumpImport.Cipher

namespace Column

variable (n : Nat)

lemma toNat_ofNat : (ofNat n).toNat = n % 2 ^ 32 := by
  simp only [toNat, ofNat, UInt8.toNat_ofNat', Nat.shiftLeft_eq, Nat.shiftRight_eq_div_pow]
  omega

lemma ofNat_toNat (x : Column) : ofNat x.toNat = x := by
  obtain ⟨a, b, c, d⟩ := x
  have ha := a.toNat_lt
  have hb := b.toNat_lt
  have hc := c.toNat_lt
  have hd := d.toNat_lt
  simp only [toNat, ofNat, Column.mk.injEq, ← UInt8.toNat_inj, UInt8.toNat_ofNat', Nat.shiftLeft_eq,
    Nat.shiftRight_eq_div_pow]
  omega

lemma toNat_lt (x : Column) : x.toNat < 2 ^ 32 := by
  rw [← ofNat_toNat x, toNat_ofNat]
  exact Nat.mod_lt _ (by decide)

lemma ofNat_mod : ofNat (n % 2 ^ 32) = ofNat n := by
  rw [← toNat_ofNat, ofNat_toNat]

end Column

namespace Block

variable (n : Nat)

lemma toNat_ofNat : (ofNat n).toNat = n % 2 ^ 128 := by
  simp only [toNat, ofNat, Column.toNat_ofNat, Nat.shiftLeft_eq, Nat.shiftRight_eq_div_pow]
  omega

lemma ofNat_toNat (b : Block) : ofNat b.toNat = b := by
  obtain ⟨w, x, y, z⟩ := b
  have hw := w.toNat_lt
  have hx := x.toNat_lt
  have hy := y.toNat_lt
  have hz := z.toNat_lt
  have column {m : Nat} {c : Column} (h : m % 2 ^ 32 = c.toNat) : Column.ofNat m = c := by
    rw [← Column.ofNat_mod, h, Column.ofNat_toNat]
  simp only [toNat, ofNat, Block.mk.injEq, Nat.shiftLeft_eq, Nat.shiftRight_eq_div_pow]
  exact ⟨column (by omega), column (by omega), column (by omega), column (by omega)⟩

lemma ofNat_mod : ofNat (n % 2 ^ 128) = ofNat n := by
  rw [← toNat_ofNat, ofNat_toNat]

lemma next_ofNat : (ofNat n).next = ofNat (n + 1) := by
  rw [next, toNat_ofNat, ← ofNat_mod, Nat.mod_add_mod, ofNat_mod]

end Block

namespace Keystream

def byteAt (encrypt : Block → Block) (iv : Block) (i : Nat) : UInt8 :=
  (encrypt (.ofNat ((iv.toNat + i / 16) % 2 ^ 128))).bytes.getD (i % 16) 0

structure At (encrypt : Block → Block) (iv : Block) (n : Nat) (k : Keystream) : Prop where
  same : k.encrypt = encrypt
  counted : ∃ blocks, k.counter = .ofNat (iv.toNat + blocks) ∧ n + k.ready.length = 16 * blocks
  ready : ∀ j < k.ready.length, k.ready.getD j 0 = byteAt encrypt iv (n + j)

variable {encrypt : Block → Block} {iv : Block} {n : Nat} {k : Keystream}

lemma at_start : At encrypt iv 0 (start encrypt iv) where
  same := rfl
  counted := ⟨0, by rw [Nat.add_zero, Block.ofNat_toNat]; rfl, rfl⟩
  ready _ h := absurd h (Nat.not_lt_zero _)

lemma byteAt_block {blocks j : Nat} (h : j < 16) :
    byteAt encrypt iv (16 * blocks + j) = (encrypt (.ofNat (iv.toNat + blocks))).bytes.getD j 0 := by
  rw [byteAt, Block.ofNat_mod, show (16 * blocks + j) / 16 = blocks by omega,
    show (16 * blocks + j) % 16 = j by omega]

lemma next_cons (e : Block → Block) (c : Block) (b : UInt8) (r : Bytes) :
    next ⟨e, c, b :: r⟩ = (b, ⟨e, c, r⟩) := rfl

lemma next_nil (e : Block → Block) (c : Block) :
    next ⟨e, c, []⟩ = ((e c).bytes.getD 0 0, ⟨e, c.next, (e c).bytes.tail⟩) := rfl

lemma At.next (h : At encrypt iv n k) : k.next.1 = byteAt encrypt iv n ∧ At encrypt iv (n + 1) k.next.2 := by
  obtain ⟨e, counter, ready⟩ := k
  obtain ⟨same, ⟨blocks, counted, used⟩, ready_eq⟩ := h
  simp only at same counted used ready_eq
  cases ready with
  | cons b r =>
    rw [List.length_cons] at used ready_eq
    rw [next_cons]
    refine ⟨ready_eq 0 (Nat.succ_pos _), same, ⟨blocks, counted, by simp only; omega⟩, fun j hj => ?_⟩
    rw [Nat.add_assoc, Nat.add_comm 1]
    exact ready_eq (j + 1) (Nat.succ_lt_succ hj)
  | nil =>
    have hl : (e counter).bytes.tail.length = 15 := by rw [List.length_tail, Block.length_bytes]
    rw [List.length_nil, Nat.add_zero] at used
    rw [next_nil, used]
    refine ⟨?_, same,
      ⟨blocks + 1, by rw [counted, Block.next_ofNat, Nat.add_assoc], by simp only [hl]; omega⟩,
      fun j hj => ?_⟩
    · rw [← Nat.add_zero (16 * blocks), byteAt_block (by decide), same, counted]
    · simp only [hl] at hj
      rw [Nat.add_assoc, byteAt_block (by omega), ← counted, ← same, Nat.add_comm 1]
      simp only [List.getD_eq_getElem?_getD, List.getElem?_tail]

lemma At.apply (h : At encrypt iv n k) (bs : Bytes) :
    (k.apply bs).1 = (bs.mapIdx fun i b => b ^^^ byteAt encrypt iv (n + i)) ∧
      At encrypt iv (n + bs.length) (k.apply bs).2 := by
  induction bs generalizing n k with
  | nil => exact ⟨rfl, h⟩
  | cons b bs ih =>
    obtain ⟨hb, hk⟩ := h.next
    obtain ⟨hbs, hk⟩ := ih hk
    rw [apply_cons, hb, hbs]
    refine ⟨?_, ?_⟩
    · simp [List.mapIdx_cons, Nat.add_assoc, Nat.add_comm 1]
    · rwa [List.length_cons, Nat.add_comm bs.length, ← Nat.add_assoc]

end Keystream

end DumpImport.Cipher
