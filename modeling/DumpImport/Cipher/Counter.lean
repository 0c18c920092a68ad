import DumpImport.Cipher.Block

/-!
Counter mode: bytes are combined with the encrypted successors of a first block, which wrap
around. The same pass encrypts and decrypts.
-/
namespace DumpImport.Cipher

structure Keystream where
  encrypt : Block → Block
  counter : Block
  ready : Bytes

namespace Keystream

def start (encrypt : Block → Block) (iv : Block) : Keystream := ⟨encrypt, iv, []⟩

def next (k : Keystream) : UInt8 × Keystream :=
  match k.ready with
  | b :: r => (b, ⟨k.encrypt, k.counter, r⟩)
  | [] =>
    let e := k.encrypt k.counter
    (e.w.a, ⟨k.encrypt, k.counter.next, e.bytes.tail⟩)

def applyOnto : Bytes → Keystream → Bytes → Bytes × Keystream
  | acc, k, [] => (acc.reverse, k)
  | acc, k, b :: bs =>
    let (s, k) := k.next
    applyOnto ((b ^^^ s) :: acc) k bs

def apply (k : Keystream) (bs : Bytes) : Bytes × Keystream := applyOnto [] k bs

theorem applyOnto_eq (acc : Bytes) (k : Keystream) (bs : Bytes) :
    applyOnto acc k bs = (acc.reverse ++ (applyOnto [] k bs).1, (applyOnto [] k bs).2) := by
  induction bs generalizing acc k with
  | nil => simp [applyOnto]
  | cons b bs ih => simp [applyOnto, ih (_ :: acc), ih [_]]

theorem apply_cons (k : Keystream) (b : UInt8) (bs : Bytes) :
    k.apply (b :: bs) = ((b ^^^ k.next.1) :: (k.next.2.apply bs).1, (k.next.2.apply bs).2) := by
  simp [apply, applyOnto, applyOnto_eq [_]]

theorem apply_append (k : Keystream) (as bs : Bytes) :
    k.apply (as ++ bs) =
      ((k.apply as).1 ++ ((k.apply as).2.apply bs).1, ((k.apply as).2.apply bs).2) := by
  induction as generalizing k with
  | nil => simp [apply, applyOnto]
  | cons a as ih => simp [apply_cons, ih]

end Keystream

end DumpImport.Cipher
