import DumpImport.Record.Date

namespace DumpImport.Record

inductive Verdict where
  | keep
  | tooEarly
  | tooLate
deriving DecidableEq, Repr

def Verdict.name : Verdict → String
  | .keep => "do_not_filter"
  | .tooEarly => "too_early"
  | .tooLate => "too_late"

/-- Both ends belong to the window, and the epoch is never too early. -/
def classify (t earliest latest epoch : Int) : Verdict :=
  if t < earliest ∧ t ≠ epoch then .tooEarly
  else if latest < t then .tooLate
  else .keep

structure Window where
  earliest : Int
  latest : Int
deriving DecidableEq, Repr

namespace Window

def of (earliest latest : Option Int) : Window :=
  ⟨earliest.getD (-0x8000000000000000), latest.getD 0x7FFFFFFFFFFFFFFF⟩

def everything : Window := of none none

def classify (w : Window) (t : Int) : Verdict :=
  Record.classify t w.earliest w.latest epochMillis

/-- A blank bound is none; a date without a zone is in UTC. -/
def bound : Option String → Except Error (Option Int)
  | none => .ok none
  | some s =>
    let s := Text.trim s
    if s = "" then .ok none
    else match Time.readAs [.none, .utc, .offset] s with
      | some t => .ok (some t.millis)
      | none => .error (.unparseableDate s)

def ofBounds (earliest latest : Option String) : Except Error Window := do
  let a ← bound earliest
  let b ← bound latest
  .ok (of a b)

end Window

end DumpImport.Record
