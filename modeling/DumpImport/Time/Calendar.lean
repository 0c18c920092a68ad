/-!
The Gregorian calendar, extended to all years. Days are counted from 1970-01-01.
-/
namespace DumpImport.Time

def isLeap (y : Int) : Bool := y % 4 == 0 && (y % 100 != 0 || y % 400 == 0)

def monthLengths (leap : Bool) : List Nat :=
  [31, if leap then 29 else 28, 31, 30, 31, 30, 31, 31, 30, 31, 30, 31]

structure Date where
  year : Int
  month : Nat
  day : Nat
deriving DecidableEq, Repr

namespace Date

def Valid (d : Date) : Prop :=
  1 ≤ d.month ∧ d.month ≤ 12 ∧ 1 ≤ d.day ∧
    d.day ≤ (monthLengths (isLeap d.year)).getD (d.month - 1) 0

instance (d : Date) : Decidable d.Valid := inferInstanceAs (Decidable (_ ∧ _ ∧ _ ∧ _))

/-- Days from 0001-01-01 to the first of January of a year. -/
def yearStart (y : Int) : Int := 365 * (y - 1) + (y - 1) / 4 - (y - 1) / 100 + (y - 1) / 400

def epochStart : Int := 719162

def monthStart (d : Date) : Nat :=
  ((monthLengths (isLeap d.year)).take (d.month - 1)).foldl (· + ·) 0

def toDays (d : Date) : Int := yearStart d.year + d.monthStart + d.day - 1 - epochStart

/-- The month and the day in it, from one, of the day `n` of a year, from zero. -/
def ofYearDay : List Nat → Nat → Nat → Nat × Nat
  | [], m, n => (m, n + 1)
  | l :: ls, m, n => if n < l then (m, n + 1) else ofYearDay ls (m + 1) (n - l)

/-- Cycles of 400, 100, 4 and one year; the last cycle of the second and fourth kind is a day
longer. -/
def ofDays (days : Int) : Date :=
  let n := days + epochStart
  let r := n % 146097
  let century := min (r / 36524) 3
  let r := r - century * 36524
  let four := r / 1461
  let r := r % 1461
  let one := min (r / 365) 3
  let year := n / 146097 * 400 + century * 100 + four * 4 + one + 1
  let (month, day) := ofYearDay (monthLengths (isLeap year)) 1 (r - one * 365).toNat
  ⟨year, month, day⟩

end Date

end DumpImport.Time
