import DumpImport.Text.Utf8

namespace DumpImport.Cipher

structure Column where
  a : UInt8
  b : UInt8
  c : UInt8
  d : UInt8
deriving DecidableEq, Repr

namespace Column

def bytes (x : Column) : Bytes := [x.a, x.b, x.c, x.d]

def xor (x y : Column) : Column := ⟨x.a ^^^ y.a, x.b ^^^ y.b, x.c ^^^ y.c, x.d ^^^ y.d⟩

def ofNat (n : Nat) : Column :=
  ⟨UInt8.ofNat (n >>> 24), UInt8.ofNat (n >>> 16), UInt8.ofNat (n >>> 8), UInt8.ofNat n⟩

def toNat (x : Column) : Nat :=
  x.a.toNat <<< 24 + x.b.toNat <<< 16 + x.c.toNat <<< 8 + x.d.toNat

def ofBytes : Bytes → List Column
  | a :: b :: c :: d :: r => ⟨a, b, c, d⟩ :: ofBytes r
  | _ => []

end Column

structure Block where
  w : Column
  x : Column
  y : Column
  z : Column
deriving DecidableEq, Repr

namespace Block

def bytes (b : Block) : Bytes := b.w.bytes ++ b.x.bytes ++ b.y.bytes ++ b.z.bytes

theorem length_bytes (b : Block) : b.bytes.length = 16 := rfl

def xor (b k : Block) : Block := ⟨b.w.xor k.w, b.x.xor k.x, b.y.xor k.y, b.z.xor k.z⟩

def ofNat (n : Nat) : Block :=
  ⟨.ofNat (n >>> 96), .ofNat (n >>> 64), .ofNat (n >>> 32), .ofNat n⟩

def toNat (b : Block) : Nat :=
  b.w.toNat <<< 96 + b.x.toNat <<< 64 + b.y.toNat <<< 32 + b.z.toNat

def next (b : Block) : Block := ofNat (b.toNat + 1)

def ofBytes? (bs : Bytes) : Option Block :=
  match Column.ofBytes bs with
  | [w, x, y, z] => if bs.length = 16 then some ⟨w, x, y, z⟩ else none
  | _ => none

end Block

abbrev BlockFunction := Bytes → Block → Block

end DumpImport.Cipher
