import DumpImport.Binary64.Basic

namespace DumpImport.Magnitude

structure Decimal where
  digits : Nat
  exp : Int
deriving DecidableEq, Repr

def compareTen (a : Nat) (p : Int) (b : Nat) (q : Int) : Ordering :=
  compare ((a * Nat.pow 10 (-q).toNat) <<< p.toNat) ((b * Nat.pow 10 q.toNat) <<< (-p).toNat)

def leadingTen (x : Magnitude) : Int :=
  let e := (x.exp + x.mant.log2) * 30103 / 100000
  if compareTen x.mant x.exp 1 e == .lt then e - 1
  else if compareTen x.mant x.exp 1 (e + 1) == .lt then e
  else e + 1

/-- In quarters of the last place, how far below the magnitude its numbers reach. -/
def quartersBelow (x : Magnitude) : Nat := if x.mant = 1 <<< 52 ∧ -1074 < x.exp then 1 else 2

def readsBack (x : Magnitude) (d : Decimal) : Bool :=
  let low := compareTen (4 * x.mant - x.quartersBelow) (x.exp - 2) d.digits d.exp
  let high := compareTen (4 * x.mant + 2) (x.exp - 2) d.digits d.exp
  (low == .lt || low == .eq && x.mant % 2 == 0) && (high == .gt || high == .eq && x.mant % 2 == 0)

/-- The nearest that reads back on the grid of `10 ^ k`; a tie goes to the even digit. -/
def onGrid (x : Magnitude) (k : Int) : Option Decimal :=
  let a := (x.mant * Nat.pow 10 (-k).toNat) <<< x.exp.toNat
  let b := Nat.pow 10 k.toNat <<< (-x.exp).toNat
  let low : Decimal := ⟨a / b, k⟩
  let high : Decimal := ⟨a / b + 1, k⟩
  let first := if divHalfEven a b = a / b then low else high
  let second := if divHalfEven a b = a / b then high else low
  if x.readsBack first then some first
  else if x.readsBack second then some second
  else none

def Decimal.reduce : Nat → Decimal → Decimal
  | 0, d => d
  | n + 1, d => if d.digits % 10 = 0 then reduce n ⟨d.digits / 10, d.exp + 1⟩ else d

def shortest (x : Magnitude) : Decimal :=
  if x.mant = 0 then ⟨0, 0⟩
  else
    let top := x.leadingTen
    let grids := (List.range 17).map fun (i : Nat) => x.onGrid (top - i)
    ((grids.findSome? id).getD ⟨0, 0⟩).reduce 20

end DumpImport.Magnitude
