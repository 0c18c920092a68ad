import DumpImport.Binary64.Shortest

namespace DumpImport

structure PointStyle where
  low : Int
  high : Int

def Binary64.pointStyle : PointStyle := ⟨-5, 16⟩

def decimalDigits (n : Nat) : List Char := Nat.toDigits 10 n

namespace Magnitude.Decimal

def positional (ds : List Char) (top : Int) : List Char :=
  if top < 0 then '0' :: '.' :: List.replicate (-top - 1).toNat '0' ++ ds
  else
    let n := top.toNat + 1
    let whole := ds.take n ++ List.replicate (n - ds.length) '0'
    let fraction := ds.drop n
    whole ++ '.' :: if fraction.isEmpty then ['0'] else fraction

def scientific (ds : List Char) (top : Int) : List Char :=
  let mantissa := match ds with
    | d :: e :: r => d :: '.' :: e :: r
    | ds => ds
  mantissa ++ 'e' :: (if top < 0 then '-' else '+') :: decimalDigits top.natAbs

def text (s : PointStyle) (d : Decimal) : List Char :=
  let ds := decimalDigits d.digits
  let top := d.exp + ds.length - 1
  if top < s.low ∨ s.high ≤ top then scientific ds top else positional ds top

end Magnitude.Decimal

def Binary64.text (x : Binary64) : List Char :=
  let t := x.mag.shortest.text Binary64.pointStyle
  if x.negative then '-' :: t else t

end DumpImport
