import DumpImport.Load.Line

/-!
A load, one file after the other. What comes of it does not depend on how many files are read at a
time, and one is the simplest number.
-/
namespace DumpImport.Load.Loader

variable {m : Type → Type} [Monad m]

def lines (l : Loader m) (c : Dump.Collection) : Summary → List String → m (Except Error Summary)
  | s, [] => return .ok s
  | s, t :: ts => do
    match ← l.line c s t with
    | .ok s => l.lines c s ts
    | .error e => return .error e

def finish (l : Loader m) (c : Dump.Collection) : m Unit := do
  l.count (.fileLoaded c.name)
  l.count (.fileTimed c.name)

/-- The lines that could be read count even if the file breaks off. -/
def source (l : Loader m) (f : Dump.Source) : m (Except Error Summary) := do
  match ← l.lines f.collection .oneFile f.lines with
  | .error e => return .error e
  | .ok s =>
    match f.failure with
    | some e => return .error (.dump e)
    | none =>
      l.finish f.collection
      return .ok s

def file (l : Loader m) (path : String) : m (Except Error Summary) := do
  match ← l.load path with
  | .error e => return .error (.dump e)
  | .ok f => l.source f

def files (l : Loader m) : Summary → List String → m (Except Error Summary)
  | s, [] => return .ok s
  | s, p :: ps => do
    match ← l.file p with
    | .ok t => l.files (s + t) ps
    | .error e => return .error e

def run (l : Loader m) (paths : List String) : m (Except Error Summary) := do
  match ← l.files .zero paths with
  | .error e => return .error e
  | .ok s =>
    match ← l.sink.flush with
    | .ok _ => return .ok s
    | .error e => return .error (.sink e)

end DumpImport.Load.Loader
