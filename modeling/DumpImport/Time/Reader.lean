import DumpImport.Text.Blank
import DumpImport.Text.Number
import DumpImport.Time.Instant

/-!
Reading dates such as `2019-07-04T07:27:35.104+0000`. Blanks may stand before each number and
before the zone, numbers may be short, the year may be signed, and the fraction may be missing.
-/
namespace DumpImport.Time

abbrev Reader (α : Type) := List Char → Option (α × List Char)

def isDigit (c : Char) : Bool := '0' ≤ c && c ≤ '9'

def digits (bound : Option Nat) : Reader (List Char) := fun cs =>
  let ds := cs.takeWhile isDigit
  let ds := match bound with
    | some n => ds.take n
    | none => ds
  if ds.isEmpty then none else some (ds, cs.drop ds.length)

def numeral (bound : Option Nat) : Reader Nat := fun cs =>
  (digits bound cs).map fun (ds, r) => (Text.decimalValue ds, r)

def numeralIn (lo hi : Nat) : Reader Nat := fun cs => do
  let (n, r) ← numeral (some 2) (Text.dropBlank cs)
  if lo ≤ n ∧ n ≤ hi then some (n, r) else none

def year : Reader Int := fun cs =>
  match Text.dropBlank cs with
  | '-' :: r => (numeral none r).map fun (n, r) => (-n, r)
  | '+' :: r => (numeral none r).map fun (n, r) => ((n : Int), r)
  | cs => (numeral (some 4) cs).map fun (n, r) => ((n : Int), r)

def mark (c : Char) : Reader Unit := fun cs =>
  match cs with
  | d :: r => if d = c then some ((), r) else none
  | [] => none

/-- Nanoseconds; digits after the ninth count for nothing. -/
def fraction : Reader Nat := fun cs =>
  match cs with
  | '.' :: r => (digits none r).map fun (ds, r) => (Text.decimalValue ((ds.take 9).rightpad 9 '0'), r)
  | _ => some (0, cs)

def firstYear : Int := -262143
def lastYear : Int := 262142

/-- A date and a time of day whose zone is not yet known, as seconds of its own clock. -/
def moment : Reader Instant := fun cs => do
  let (y, cs) ← year cs
  let (_, cs) ← mark '-' cs
  let (m, cs) ← numeralIn 1 12 cs
  let (_, cs) ← mark '-' cs
  let (d, cs) ← numeralIn 1 31 cs
  let (_, cs) ← mark 'T' cs
  let (hour, cs) ← numeralIn 0 23 cs
  let (_, cs) ← mark ':' cs
  let (minute, cs) ← numeralIn 0 59 cs
  let (_, cs) ← mark ':' cs
  let (second, cs) ← numeralIn 0 60 cs
  let (nanos, cs) ← fraction cs
  let date : Date := ⟨y, m, d⟩
  if firstYear ≤ y ∧ y ≤ lastYear ∧ date.Valid then
    let leap := second = 60
    let clock : Clock := ⟨hour, minute, if leap then 59 else second⟩
    some (⟨date.toDays * 86400 + clock.toSeconds, if leap then nanos + 1000000000 else nanos⟩, cs)
  else none

def isSeparator (c : Char) : Bool := c == ':' || Text.isBlank c

def twoDigits : Reader Nat := fun cs =>
  match cs with
  | c :: d :: r => if isDigit c ∧ isDigit d then some (Text.decimalValue [c, d], r) else none
  | _ => none

def offset : Reader Int := fun cs => do
  let (negative, cs) ← match Text.dropBlank cs with
    | '+' :: r => some (false, r)
    | '-' :: r => some (true, r)
    | '\u2212' :: r => some (true, r)
    | _ => none
  let (hours, cs) ← twoDigits cs
  let (minutes, cs) ← twoDigits (cs.dropWhile isSeparator)
  if minutes ≤ 59 then
    let n : Int := hours * 3600 + minutes * 60
    some (if negative then -n else n, cs)
  else none

inductive Zone where
  | none
  | utc
  | offset

def Instant.inRange (t : Instant) : Bool := firstYear ≤ t.date.year && t.date.year ≤ lastYear

def Zone.read (z : Zone) (t : Instant) (cs : List Char) : Option Instant :=
  match z with
  | .none => if cs = [] then some t else Option.none
  | .utc => if cs = ['Z'] then some t else Option.none
  | .offset => do
    let (o, rest) ← Time.offset cs
    let t : Instant := ⟨t.seconds - o, t.nanos⟩
    if rest = [] ∧ o.natAbs < 86400 ∧ t.inRange then some t else Option.none

def readAs (zones : List Zone) (s : String) : Option Instant := do
  let (t, cs) ← moment s.toList
  zones.findSome? fun z => z.read t cs

def read (s : String) : Option Instant := readAs [.utc, .offset] s

end DumpImport.Time
