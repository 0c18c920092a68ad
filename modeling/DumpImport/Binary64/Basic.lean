/-!
Finite binary floating point of 53 bits in exact arithmetic. A magnitude is `mant * 2 ^ exp` with
`mant < 2 ^ 53` and `exp` as small as that allows, from -1074 to 971.
-/
namespace DumpImport

structure Magnitude where
  mant : Nat
  exp : Int
deriving DecidableEq, Repr

structure Binary64 where
  negative : Bool
  mag : Magnitude
deriving DecidableEq, Repr

def divHalfEven (a b : Nat) : Nat :=
  let q := a / b
  let r := 2 * (a % b)
  if r < b then q else if b < r then q + 1 else q + q % 2

namespace Magnitude

def zero : Magnitude := ⟨0, -1074⟩

def exponentOf (a b : Nat) : Int :=
  let e : Int := (a.log2 : Int) - b.log2 - 53
  let e := if a <<< (-e).toNat < b <<< e.toNat <<< 53 then e else e + 1
  max e (-1074)

/-- The magnitude nearest to `a / b`, of two the one with an even `mant`; `none` beyond the
largest. -/
def ofRatio (a b : Nat) : Option Magnitude :=
  if a = 0 then some zero
  else
    let e := exponentOf a b
    let m := divHalfEven (a <<< (-e).toNat) (b <<< e.toNat)
    let r : Magnitude := if m = 1 <<< 53 then ⟨1 <<< 52, e + 1⟩ else ⟨m, e⟩
    if 971 < r.exp then none else some r

def ofNat (n : Nat) : Option Magnitude := ofRatio n 1

def mul (x y : Magnitude) : Option Magnitude :=
  let e := x.exp + y.exp
  ofRatio ((x.mant * y.mant) <<< e.toNat) (1 <<< (-e).toNat)

def div (x y : Magnitude) : Option Magnitude :=
  let e := x.exp - y.exp
  ofRatio (x.mant <<< e.toNat) (y.mant <<< (-e).toNat)

def tenPow (n : Nat) : Option Magnitude := ofNat (Nat.pow 10 n)

def tenTop : Nat := 308

def sink : Nat → Magnitude → Option Magnitude
  | 0, x => some x
  | n + 1, x => if x.mant = 0 then some x else ((tenPow tenTop).bind x.div).bind (sink n)

/-- `x * 10 ^ e` as a product or a quotient of two magnitudes, in steps of `10 ^ tenTop` when the
power lies below the least. -/
def scaleTen (x : Magnitude) (e : Int) : Option Magnitude :=
  if x.mant = 0 then some x
  else if 0 ≤ e then
    if e ≤ tenTop then (tenPow e.toNat).bind x.mul else none
  else
    let n := ((-e).toNat - 1) / tenTop
    (sink n x).bind fun y =>
      if y.mant = 0 then some y else (tenPow ((-e).toNat - tenTop * n)).bind y.div

end Magnitude

end DumpImport
