/-!
Text as bytes. Reading is a machine that takes one byte at a time and gives a piece for each
character and for each longest prefix of a character that something else cut short.
-/
namespace DumpImport

abbrev Bytes := List UInt8

namespace Text.Utf8

def encode (cs : List Char) : Bytes := cs.flatMap String.utf8EncodeChar

abbrev Piece := Option Char

/-- Where the machine stands: between characters, or inside one of value `acc` so far that wants
`more + 1` bytes, of which the next lies in `lo..hi`. -/
inductive State where
  | between
  | inside (acc more lo hi : Nat)
deriving DecidableEq, Repr

def State.lead (b : Nat) : State × List Piece :=
  if b < 0x80 then (.between, [some (Char.ofNat b)])
  else if 0xC2 ≤ b ∧ b ≤ 0xDF then (.inside (b - 0xC0) 0 0x80 0xBF, [])
  else if b = 0xE0 then (.inside 0 1 0xA0 0xBF, [])
  else if b = 0xED then (.inside 0xD 1 0x80 0x9F, [])
  else if 0xE1 ≤ b ∧ b ≤ 0xEF then (.inside (b - 0xE0) 1 0x80 0xBF, [])
  else if b = 0xF0 then (.inside 0 2 0x90 0xBF, [])
  else if b = 0xF4 then (.inside 4 2 0x80 0x8F, [])
  else if 0xF1 ≤ b ∧ b ≤ 0xF3 then (.inside (b - 0xF0) 2 0x80 0xBF, [])
  else (.between, [none])

def State.step : State → Nat → State × List Piece
  | .between, b => lead b
  | .inside acc more lo hi, b =>
    if lo ≤ b ∧ b ≤ hi then
      match more with
      | 0 => (.between, [some (Char.ofNat (acc * 64 + (b - 0x80)))])
      | n + 1 => (.inside (acc * 64 + (b - 0x80)) n 0x80 0xBF, [])
    else ((lead b).1, none :: (lead b).2)

def State.flush : State → List Piece
  | .between => []
  | .inside .. => [none]

/-- The pieces are kept last first. -/
structure Machine where
  state : State
  out : List Piece

namespace Machine

def start : Machine := ⟨.between, []⟩

def feed (m : Machine) (b : UInt8) : Machine :=
  let r := m.state.step b.toNat
  ⟨r.1, r.2.reverse ++ m.out⟩

def finish (m : Machine) : List Piece := (m.state.flush.reverse ++ m.out).reverse

end Machine

def pieces (bs : Bytes) : List Piece := (bs.foldl Machine.feed .start).finish

def lossy (bs : Bytes) : List Char := (pieces bs).map (·.getD '\ufffd')

def decode? (bs : Bytes) : Option (List Char) :=
  let ps := pieces bs
  if ps.all Option.isSome then some (ps.filterMap id) else none

end Text.Utf8

def Bytes.ofText (s : String) : Bytes := Text.Utf8.encode s.toList

def Bytes.lossyText (bs : Bytes) : String := String.ofList (Text.Utf8.lossy bs)

end DumpImport
