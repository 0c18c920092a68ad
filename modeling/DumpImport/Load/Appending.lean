import DumpImport.Load.Sink

/-!
Several writers of one file of records. Each makes its line on its own, takes the lock when it is free,
hands the line on in pieces and releases the lock. What was handed on lies in a buffer, and it goes to
the file in pieces too. A schedule says who does what next.
-/
namespace DumpImport.Load.Appending

structure Writer where
  queue : List Record.Mapped
  ready : Option Bytes

structure Held where
  writer : Nat
  rest : Bytes

structure State where
  writers : List Writer
  lock : Option Held
  buffer : Bytes
  file : Bytes

/-- Whoever has the lock can `hand` on a piece or `release` it. -/
inductive Move where
  | prepare (i : Nat)
  | take (i : Nat)
  | hand (n : Nat)
  | release
  | spill (n : Nat)
  | flush

namespace State

def start (queues : List (List Record.Mapped)) : State := ⟨queues.map fun q => ⟨q, none⟩, none, [], []⟩

def isHolder (s : State) (i : Nat) : Bool := s.lock.any fun h => h.writer == i

def move (s : State) : Move → Option State
  | .prepare i =>
    match s.writers[i]? with
    | some ⟨r :: queue, none⟩ =>
      if s.isHolder i then none
      else some { s with writers := s.writers.set i ⟨queue, some (Bytes.ofText (storedLine r))⟩ }
    | _ => none
  | .take i =>
    match s.lock, s.writers[i]? with
    | none, some ⟨queue, some line⟩ =>
      some { s with writers := s.writers.set i ⟨queue, none⟩, lock := some ⟨i, line⟩ }
    | _, _ => none
  | .hand n =>
    s.lock.map fun h => { s with lock := some ⟨h.writer, h.rest.drop n⟩, buffer := s.buffer ++ h.rest.take n }
  | .release =>
    match s.lock with
    | some ⟨_, []⟩ => some { s with lock := none }
    | _ => none
  | .spill n => some { s with file := s.file ++ s.buffer.take n, buffer := s.buffer.drop n }
  | .flush => if s.lock.isSome then none else some { s with file := s.file ++ s.buffer, buffer := [] }

def follow : State → List Move → Option State
  | s, [] => some s
  | s, a :: as => do follow (← s.move a) as

end State

end DumpImport.Load.Appending
