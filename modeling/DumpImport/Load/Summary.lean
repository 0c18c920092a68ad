import DumpImport.Dump.Source
import DumpImport.Load.Sink

namespace DumpImport.Load

structure Summary where
  files : Nat
  written : Nat
  tooEarly : Nat
  tooLate : Nat
  failed : Nat
deriving DecidableEq, Repr

namespace Summary

def zero : Summary := ⟨0, 0, 0, 0, 0⟩

def add (a b : Summary) : Summary :=
  ⟨a.files + b.files, a.written + b.written, a.tooEarly + b.tooEarly, a.tooLate + b.tooLate,
    a.failed + b.failed⟩

instance : Add Summary := ⟨add⟩

def oneFile : Summary := { zero with files := 1 }

def records (s : Summary) : Nat := s.written + s.tooEarly + s.tooLate + s.failed

end Summary

inductive Error where
  | key (e : KeyService.Error)
  | dump (e : Dump.Error)
  | sink (e : Sink.Error)
  | listing (e : Files.Error)
  | abandoned

namespace Error

def message : Error → String
  | .key e => "data key service error: " ++ e.message
  | .dump e => e.message
  | .sink e => e.message
  | .listing e => "failed to list input files: " ++ e.message
  | .abandoned => "file concurrency limiter was closed: semaphore closed"

def cause : Error → Option String
  | .sink (.file e) => some e.message
  | _ => none

end Error

end DumpImport.Load
