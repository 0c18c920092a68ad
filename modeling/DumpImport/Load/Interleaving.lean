import DumpImport.Load.Run

/-!
Several files at a time. Each file is a task that takes one step after the other; which task takes
the next step is open, and a schedule says it. Only a limited number of files is open at once. The
first failure that is joined makes the other tasks stop before their next line.
-/
namespace DumpImport.Load

structure Reading where
  source : Dump.Source
  summary : Summary

inductive Task where
  | waiting (path : String)
  | admitted (path : String)
  | reading (r : Reading)
  | mapping (r : Reading) (line : String)
  | writing (r : Reading) (record : Record.Mapped)
  | ended (result : Except Error Summary)
  | joined

structure State where
  tasks : List Task
  free : Nat
  cancelled : Bool
  /-- Nobody waits for their turn any more. -/
  closed : Bool
  total : Summary
  failure : Option Error

/-- `step` is a step of a task, the others are of the one who waits for the tasks. -/
inductive Move where
  | step (i : Nat)
  | join (i : Nat)
  | close

namespace State

/-- A limit of zero counts as one. -/
def start (limit : Nat) (paths : List String) : State :=
  ⟨paths.map .waiting, max limit 1, false, false, .zero, none⟩

def isJoined : Task → Bool
  | .joined => true
  | _ => false

def isOver (s : State) : Bool := s.tasks.all isJoined && s.cancelled == s.closed

end State

namespace Loader

variable {m : Type → Type} [Monad m]

def stop (l : Loader m) (r : Reading) (free : Nat) : m (Option (Task × Nat)) := do
  l.finish r.source.collection
  return some (.ended (.ok r.summary), free + 1)

def read (l : Loader m) (cancelled : Bool) (free : Nat) (r : Reading) :
    m (Option (Task × Nat)) := do
  match r.source.lines, r.source.failure with
  | [], none => l.stop r free
  | [], some e => if cancelled then l.stop r free else return some (.ended (.error (.dump e)), free + 1)
  | t :: ts, _ =>
    if cancelled then l.stop r free
    else return some (.mapping { r with source := { r.source with lines := ts } } t, free)

def mapNext (l : Loader m) (r : Reading) (line : String) : m Task := do
  match ← l.prepare r.source.collection r.summary line with
  | .nothing s => return .reading ⟨r.source, s⟩
  | .write record => return .writing r record

def step (l : Loader m) (s : State) : Task → m (Option (Task × Nat))
  | .waiting p =>
    if s.closed then return some (.ended (.error .abandoned), s.free)
    else if s.free = 0 then return none
    else return some (.admitted p, s.free - 1)
  | .admitted p => do
    if s.cancelled then return some (.ended (.ok .zero), s.free + 1)
    else match ← l.load p with
      | .error e => return some (.ended (.error (.dump e)), s.free + 1)
      | .ok f => return some (.reading ⟨f, .oneFile⟩, s.free)
  | .reading r => l.read s.cancelled s.free r
  | .mapping r line => return some (← l.mapNext r line, s.free)
  | .writing r record => do
    match ← l.store r.summary record with
    | .ok t => return some (.reading ⟨r.source, t⟩, s.free)
    | .error e => return some (.ended (.error e), s.free + 1)
  | .ended _ | .joined => return none

def join (s : State) (i : Nat) (result : Except Error Summary) : State :=
  let s := { s with tasks := s.tasks.set i .joined }
  match result, s.failure with
  | .ok t, _ => { s with total := s.total + t }
  | .error e, none => { s with cancelled := true, failure := some e }
  | .error _, some _ => s

def move (l : Loader m) (s : State) : Move → m (Option State)
  | .step i => do
    match s.tasks[i]? with
    | none => return none
    | some t =>
      return (← l.step s t).map fun (t, free) => { s with tasks := s.tasks.set i t, free }
  | .join i =>
    match s.tasks[i]? with
    | some (.ended r) => return if s.cancelled = s.closed then some (join s i r) else none
    | _ => return none
  | .close => return if s.cancelled && !s.closed then some { s with closed := true } else none

def follow (l : Loader m) : State → List Move → m (Option State)
  | s, [] => return some s
  | s, a :: as => do
    match ← l.move s a with
    | some s => l.follow s as
    | none => return none

def conclude (l : Loader m) (s : State) : m (Except Error Summary) := do
  match s.failure with
  | some e => return .error e
  | none =>
    match ← l.sink.flush with
    | .ok _ => return .ok s.total
    | .error e => return .error (.sink e)

/-- A load under a schedule; `none` if the schedule asks for what cannot be done or ends early. -/
def runUnder (l : Loader m) (limit : Nat) (schedule : List Move) (paths : List String) :
    m (Option (Except Error Summary)) := do
  match ← l.follow (.start limit paths) schedule with
  | some s => if s.isOver then return some (← l.conclude s) else return none
  | none => return none

end Loader

end DumpImport.Load
