import DumpImport.Gzip.Huffman

namespace DumpImport.Gzip

inductive Fault where
  | corrupt
  | incomplete
deriving DecidableEq, Repr

structure Expansion where
  out : Array UInt8
  state : Except Fault Bits

namespace Expansion

def fail (out : Array UInt8) (f : Fault) : Expansion := ⟨out, .error f⟩

end Expansion

/-- The window that copies reach back into; before the first output it holds zeros. -/
def windowSize : Nat := 32768

def copy : Nat → Nat → Array UInt8 → Array UInt8
  | 0, _, out => out
  | n + 1, distance, out =>
    let b := if distance ≤ out.size then out.getD (out.size - distance) 0 else 0
    copy n distance (out.push b)

def plain : Nat → Bytes → Array UInt8 → Expansion
  | 0, bs, out => ⟨out, .ok (.ofBytes bs)⟩
  | _ + 1, [], out => .fail out .incomplete
  | n + 1, b :: bs, out => plain n bs (out.push b)

def plainBlock (s : Bits) (out : Array UInt8) : Expansion :=
  match s.align.rest with
  | a :: b :: c :: d :: bs =>
    let n := a.toNat + 256 * b.toNat
    if n + (c.toNat + 256 * d.toNat) = 65535 then plain n bs out else .fail out .corrupt
  | _ => .fail out .incomplete

def lengthSymbols : Array (Nat × Nat) := #[
  (3, 0), (4, 0), (5, 0), (6, 0), (7, 0), (8, 0), (9, 0), (10, 0), (11, 1), (13, 1), (15, 1),
  (17, 1), (19, 2), (23, 2), (27, 2), (31, 2), (35, 3), (43, 3), (51, 3), (59, 3), (67, 4),
  (83, 4), (99, 4), (115, 4), (131, 5), (163, 5), (195, 5), (227, 5), (258, 0)]

def distanceSymbols : Array (Nat × Nat) := #[
  (1, 0), (2, 0), (3, 0), (4, 0), (5, 1), (7, 1), (9, 2), (13, 2), (17, 3), (25, 3), (33, 4),
  (49, 4), (65, 5), (97, 5), (129, 6), (193, 6), (257, 7), (385, 7), (513, 8), (769, 8),
  (1025, 9), (1537, 9), (2049, 10), (3073, 10), (4097, 11), (6145, 11), (8193, 12), (12289, 12),
  (16385, 13), (24577, 13)]

structure Codes where
  literals : Huffman
  distances : Huffman

def fixedLengths : List Nat :=
  List.replicate 144 8 ++ List.replicate 112 9 ++ List.replicate 24 7 ++ List.replicate 8 8

def Codes.fixed : Codes := ⟨.ofLengths fixedLengths, .ofLengths (List.replicate 32 5)⟩

def extended (table : Array (Nat × Nat)) (i : Nat) (s : Bits) : Except Fault (Nat × Bits) :=
  match table[i]? with
  | none => .error .corrupt
  | some (base, extra) =>
    match s.take extra with
    | none => .error .incomplete
    | some (n, s) => .ok (base + n, s)

def symbol (h : Huffman) (s : Bits) : Except Fault (Nat × Bits) :=
  match h.decode s with
  | .found n s => .ok (n, s)
  | .unassigned => .error .corrupt
  | .short => .error .incomplete

def copyPair (c : Codes) (n : Nat) (s : Bits) : Except Fault (Nat × Nat × Bits) := do
  let (length, s) ← extended lengthSymbols (n - 257) s
  let (m, s) ← symbol c.distances s
  let (distance, s) ← extended distanceSymbols m s
  .ok (length, distance, s)

/-- Symbols up to the end of the block. Each takes a bit at least, so the bound is never met. -/
def codedBlock (c : Codes) : Nat → Bits → Array UInt8 → Expansion
  | 0, _, out => .fail out .incomplete
  | fuel + 1, s, out =>
    match symbol c.literals s with
    | .error f => .fail out f
    | .ok (n, s) =>
      if n < 256 then codedBlock c fuel s (out.push (UInt8.ofNat n))
      else if n = 256 then ⟨out, .ok s⟩
      else match copyPair c n s with
        | .error f => .fail out f
        | .ok (length, distance, s) => codedBlock c fuel s (copy length distance out)

def lengthOrder : List Nat := [16, 17, 18, 0, 8, 7, 9, 6, 10, 5, 11, 4, 12, 3, 13, 2, 14, 1, 15]

def readLengths : Nat → Bits → Option (List Nat × Bits)
  | 0, s => some ([], s)
  | n + 1, s => do
    let (l, s) ← s.take 3
    let (ls, s) ← readLengths n s
    some (l :: ls, s)

def inOrder (ls : List Nat) : List Nat :=
  (List.range 19).map fun i => ((lengthOrder.zip ls).lookup i).getD 0

def repeated (base bits : Nat) (s : Bits) : Except Fault (Nat × Bits) :=
  match s.take bits with
  | none => .error .incomplete
  | some (n, s) => .ok (base + n, s)

/-- `n` code lengths, those read so far last first; a run past the end is corrupt. -/
def codeLengths (h : Huffman) : Nat → Nat → List Nat → Bits → Except Fault (List Nat × Bits)
  | 0, _, _, _ => .error .incomplete
  | fuel + 1, n, acc, s => do
    if acc.length = n then .ok (acc.reverse, s)
    else if n < acc.length then .error .corrupt
    else
      let (m, s) ← symbol h s
      if m < 16 then codeLengths h fuel n (m :: acc) s
      else if m = 16 then
        match acc with
        | [] => .error .corrupt
        | l :: _ =>
          let (k, s) ← repeated 3 2 s
          codeLengths h fuel n (List.replicate k l ++ acc) s
      else
        let (k, s) ← if m = 17 then repeated 3 3 s else repeated 11 7 s
        codeLengths h fuel n (List.replicate k 0 ++ acc) s

def readCodes (s : Bits) : Except Fault (Codes × Bits) := do
  let (literals, s) ← repeated 257 5 s
  let (distances, s) ← repeated 1 5 s
  let (n, s) ← repeated 4 4 s
  if 286 < literals ∨ 30 < distances then .error .corrupt
  else match readLengths n s with
    | none => .error .incomplete
    | some (ls, s) =>
      let ls := inOrder ls
      if Huffman.isComplete ls then
        let total := literals + distances
        let (all, s) ← codeLengths (.ofLengths ls) (total + 1) total [] s
        let ls := all.take literals
        let ds := all.drop literals
        if Huffman.isUsable ls ∧ Huffman.isUsable ds then .ok (⟨.ofLengths ls, .ofLengths ds⟩, s)
        else .error .corrupt
      else .error .corrupt

def block (kind : Nat) (s : Bits) (out : Array UInt8) : Expansion :=
  let fuel := 8 * s.rest.length + s.held + 1
  if kind = 0 then plainBlock s out
  else if kind = 1 then codedBlock .fixed fuel s out
  else if kind = 2 then
    match readCodes s with
    | .error f => .fail out f
    | .ok (c, s) => codedBlock c fuel s out
  else .fail out .corrupt

def blocks : Nat → Bits → Array UInt8 → Expansion
  | 0, _, out => .fail out .incomplete
  | fuel + 1, s, out =>
    match s.take 3 with
    | none => .fail out .incomplete
    | some (n, s) =>
      let e := block (n / 2) s out
      match e.state with
      | .error _ => e
      | .ok s => if n % 2 = 1 then e else blocks fuel s e.out

def inflate (bs : Bytes) : Expansion := blocks (8 * bs.length + 1) (.ofBytes bs) #[]

end DumpImport.Gzip
