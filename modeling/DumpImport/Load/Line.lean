import DumpImport.Load.Summary

namespace DumpImport.Load

open Metrics (Metric)

structure Loader (m : Type → Type) where
  load : (path : String) → m (Except Dump.Error Dump.Source)
  draw : m Record.Draw
  mapper : Record.Mapper
  sink : Sink m
  count : Metric → m Unit

def mapLine {m : Type → Type} [Monad m] (count : Metric → m Unit) (draw : m Record.Draw)
    (r : Record.Mapper) (c : Dump.Collection) (line : String) :
    m (Except Record.Error Record.Mapped) := do
  match r.map c (← draw) line with
  | .ok a =>
    count (.recordMapped c.name)
    return .ok a
  | .error e =>
    count (.recordFailed c.name)
    return .error e

inductive Due where
  | nothing (s : Summary)
  | write (r : Record.Mapped)

namespace Loader

variable {m : Type → Type} [Monad m]

/-- A record that is held back is counted here, and so is one without a key. -/
def route (l : Loader m) (s : Summary) (r : Record.Mapped) : m Due := do
  match r.verdict with
  | .keep =>
    if r.key.isEmpty then
      l.count .emptyKey
      return .nothing { s with failed := s.failed + 1 }
    else return .write r
  | .tooEarly =>
    l.count (.recordFiltered .tooEarly)
    return .nothing { s with tooEarly := s.tooEarly + 1 }
  | .tooLate =>
    l.count (.recordFiltered .tooLate)
    return .nothing { s with tooLate := s.tooLate + 1 }

def prepare (l : Loader m) (c : Dump.Collection) (s : Summary) (line : String) : m Due := do
  match ← mapLine l.count l.draw l.mapper c line with
  | .ok r => l.route s r
  | .error _ => return .nothing { s with failed := s.failed + 1 }

def store (l : Loader m) (s : Summary) (r : Record.Mapped) : m (Except Error Summary) := do
  match ← l.sink.write r with
  | .ok _ => return .ok { s with written := s.written + 1 }
  | .error e => return .error (.sink e)

def line (l : Loader m) (c : Dump.Collection) (s : Summary) (text : String) :
    m (Except Error Summary) := do
  match ← l.prepare c s text with
  | .nothing s => return .ok s
  | .write r => l.store s r

end Loader

end DumpImport.Load
