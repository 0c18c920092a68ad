import DumpImport.Text.Utf8

/-!
Base64 with the alphabet that ends in `+` and `/`, padded to groups of four. Reading names the
first symbol at fault.
-/
namespace DumpImport.Text.Base64

def symbol (n : Nat) : Char :=
  if n < 26 then Char.ofNat (0x41 + n)
  else if n < 52 then Char.ofNat (0x61 + (n - 26))
  else if n < 62 then Char.ofNat (0x30 + (n - 52))
  else if n = 62 then '+'
  else '/'

def value? (b : Nat) : Option Nat :=
  if 0x41 ≤ b ∧ b ≤ 0x5A then some (b - 0x41)
  else if 0x61 ≤ b ∧ b ≤ 0x7A then some (b - 0x61 + 26)
  else if 0x30 ≤ b ∧ b ≤ 0x39 then some (b - 0x30 + 52)
  else if b = 0x2B then some 62
  else if b = 0x2F then some 63
  else none

def encodeOnto : Bytes → List Char → List Char
  | a :: b :: c :: r, acc =>
    encodeOnto r (symbol (c.toNat % 64) :: symbol (b.toNat % 16 * 4 + c.toNat / 64) ::
      symbol (a.toNat % 4 * 16 + b.toNat / 16) :: symbol (a.toNat / 4) :: acc)
  | [a, b], acc =>
    '=' :: symbol (b.toNat % 16 * 4) :: symbol (a.toNat % 4 * 16 + b.toNat / 16) ::
      symbol (a.toNat / 4) :: acc
  | [a], acc => '=' :: '=' :: symbol (a.toNat % 4 * 16) :: symbol (a.toNat / 4) :: acc
  | [], acc => acc

def encode (bs : Bytes) : String := String.ofList (encodeOnto bs []).reverse

inductive Error where
  | symbol (at_ : Nat) (b : UInt8)
  | length (n : Nat)
  | lastSymbol (at_ : Nat) (b : UInt8)
  | padding
deriving DecidableEq, Repr

def Error.message : Error → String
  | .symbol i b => s!"Invalid symbol {b.toNat}, offset {i}."
  | .length n => s!"Invalid input length: {n}"
  | .lastSymbol i b => s!"Invalid last symbol {b.toNat}, offset {i}."
  | .padding => "Invalid padding"

/-- The symbols of the last group before its padding; `pad` counts the padding met, and a symbol
after padding blames the first padding. -/
def lastSymbols (start : Nat) : Bytes → Nat → Nat → List Nat → Except Error (List Nat × Nat)
  | [], _, pad, acc => .ok (acc.reverse, pad)
  | b :: r, i, pad, acc =>
    if b = 0x3D then
      if i < 2 then .error (.symbol (start + i) b) else lastSymbols start r (i + 1) (pad + 1) acc
    else if pad > 0 then .error (.symbol (start + i - pad) 0x3D)
    else match value? b.toNat with
      | none => .error (.symbol (start + i) b)
      | some v => lastSymbols start r (i + 1) pad (v :: acc)

def lastGroup (start : Nat) (bs : Bytes) : Except Error Bytes := do
  let (vs, pad) ← lastSymbols start bs 0 0 []
  if bs ≠ [] ∧ vs.length < 2 then .error (.length (start + vs.length))
  else if (pad + vs.length) % 4 ≠ 0 then .error .padding
  else
    let last := (bs[vs.length - 1]?).getD 0
    match vs with
    | [v, w] =>
      if w % 16 = 0 then .ok [UInt8.ofNat (v * 4 + w / 16)]
      else .error (.lastSymbol (start + 1) last)
    | [v, w, x] =>
      if x % 4 = 0 then .ok [UInt8.ofNat (v * 4 + w / 16), UInt8.ofNat (w % 16 * 16 + x / 4)]
      else .error (.lastSymbol (start + 2) last)
    | [v, w, x, y] =>
      .ok [UInt8.ofNat (v * 4 + w / 16), UInt8.ofNat (w % 16 * 16 + x / 4),
        UInt8.ofNat (x % 4 * 64 + y)]
    | _ => .ok []

/-- Whole groups, except that the last four symbols or fewer go to `lastGroup`. -/
def groups : Bytes → Nat → Bytes → Except Error Bytes
  | a :: b :: c :: d :: e :: r, i, acc =>
    match value? a.toNat, value? b.toNat, value? c.toNat, value? d.toNat with
    | none, _, _, _ => .error (.symbol i a)
    | some _, none, _, _ => .error (.symbol (i + 1) b)
    | some _, some _, none, _ => .error (.symbol (i + 2) c)
    | some _, some _, some _, none => .error (.symbol (i + 3) d)
    | some v, some w, some x, some y =>
      groups (e :: r) (i + 4) (UInt8.ofNat (x % 4 * 64 + y) :: UInt8.ofNat (w % 16 * 16 + x / 4) ::
        UInt8.ofNat (v * 4 + w / 16) :: acc)
  | bs, i, acc => (lastGroup i bs).map (acc.reverse ++ ·)

/-- One symbol too many is looked at before all others, so that a line end is named as itself. -/
def strayLast (bs : Bytes) : Option Error :=
  if bs.length % 4 = 1 then
    match bs.getLast? with
    | some b => if b ≠ 0x3D ∧ value? b.toNat = none then some (.symbol (bs.length - 1) b) else none
    | none => none
  else none

def decodeBytes (bs : Bytes) : Except Error Bytes :=
  match strayLast bs with
  | some e => .error e
  | none => groups bs 0 []

def decode (s : String) : Except Error Bytes := decodeBytes (Bytes.ofText s)

end DumpImport.Text.Base64
