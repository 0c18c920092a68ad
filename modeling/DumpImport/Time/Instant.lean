import DumpImport.Time.Calendar

namespace DumpImport.Time

/-- Seconds since 1970 and nanoseconds within the second. A leap second is counted with the second
before it, whose nanoseconds then go on beyond a thousand million. -/
structure Instant where
  seconds : Int
  nanos : Nat
deriving DecidableEq, Repr

structure Clock where
  hour : Nat
  minute : Nat
  second : Nat
deriving DecidableEq, Repr

def Clock.toSeconds (c : Clock) : Nat := c.hour * 3600 + c.minute * 60 + c.second

def Clock.ofSeconds (n : Nat) : Clock := ⟨n / 3600, n / 60 % 60, n % 60⟩

def padded (width n : Nat) : String :=
  let ds := Nat.toDigits 10 n
  String.ofList (List.replicate (width - ds.length) '0' ++ ds)

/-- Four digits; a sign and at least four when the year is negative or has more. -/
def yearText (y : Int) : String :=
  if 0 ≤ y ∧ y ≤ 9999 then padded 4 y.toNat
  else (if y < 0 then "-" else "+") ++ padded 4 y.natAbs

namespace Instant

def millis (t : Instant) : Int := t.seconds * 1000 + t.nanos / 1000000

def date (t : Instant) : Date := .ofDays (t.seconds / 86400)

def clock (t : Instant) : Clock := .ofSeconds (t.seconds % 86400).toNat

/-- To the millisecond, without a zone; a leap second is written 60. -/
def stamp (t : Instant) : String :=
  let d := t.date
  let c := t.clock
  yearText d.year ++ "-" ++ padded 2 d.month ++ "-" ++ padded 2 d.day ++ "T" ++
    padded 2 c.hour ++ ":" ++ padded 2 c.minute ++ ":" ++
    padded 2 (c.second + t.nanos / 1000000000) ++ "." ++
    padded 3 (t.nanos / 1000000 % 1000)

def canonical (t : Instant) : String := t.stamp ++ "+0000"

end Instant

end DumpImport.Time
