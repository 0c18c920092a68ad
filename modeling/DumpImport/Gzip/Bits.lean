import DumpImport.Text.Utf8

namespace DumpImport.Gzip

/-- `held` bits, fewer than eight, are left of the last byte taken. -/
structure Bits where
  rest : Bytes
  hold : Nat
  held : Nat

namespace Bits

def ofBytes (bs : Bytes) : Bits := ⟨bs, 0, 0⟩

def next (s : Bits) : Option (Nat × Bits) :=
  if 0 < s.held then some (s.hold % 2, ⟨s.rest, s.hold / 2, s.held - 1⟩)
  else match s.rest with
    | [] => none
    | b :: r => some (b.toNat % 2, ⟨r, b.toNat / 2, 7⟩)

def take : Nat → Bits → Option (Nat × Bits)
  | 0, s => some (0, s)
  | n + 1, s => do
    let (b, s) ← s.next
    let (m, s) ← take n s
    some (b + 2 * m, s)

def align (s : Bits) : Bits := ⟨s.rest, 0, 0⟩

end Bits

end DumpImport.Gzip
