import DumpImport.Gzip.Bits

/-!
Canonical prefix codes: codes of one length are consecutive, in the order of their symbols, and
follow those of the length before.
-/
namespace DumpImport.Gzip

/-- For each length from one bit on, the symbols with codes of that length, in order. -/
structure Huffman where
  byLength : List (Array Nat)

namespace Huffman

def maxLength : Nat := 15

def ofLengths (lengths : List Nat) : Huffman :=
  ⟨(List.range maxLength).map fun i =>
    ((lengths.zipIdx.filter fun (l, _) => l == i + 1).map (·.2)).toArray⟩

def weight (lengths : List Nat) : Nat :=
  (lengths.map fun l => if l = 0 then 0 else 1 <<< (maxLength - l)).foldl (· + ·) 0

def used (lengths : List Nat) : Nat := (lengths.filter (0 < ·)).length

def isComplete (lengths : List Nat) : Bool := weight lengths == 1 <<< maxLength

/-- A code may be short of complete if it has one symbol or none. -/
def isUsable (lengths : List Nat) : Bool := isComplete lengths || used lengths ≤ 1

inductive Symbol where
  | found (n : Nat) (s : Bits)
  | unassigned
  | short

/-- `code` counts from the first code of the length at hand. -/
def decodeFrom : List (Array Nat) → Nat → Bits → Symbol
  | [], _, _ => .unassigned
  | syms :: rest, code, s =>
    match s.next with
    | none => .short
    | some (b, s) =>
      let code := code * 2 + b
      match syms[code]? with
      | some n => .found n s
      | none => decodeFrom rest (code - syms.size) s

def decode (h : Huffman) (s : Bits) : Symbol := decodeFrom h.byLength 0 s

end Huffman

end DumpImport.Gzip
