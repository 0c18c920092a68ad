import DumpImport.Files.Basic
import DumpImport.Metrics.Series
import DumpImport.Record.Mapping

namespace DumpImport.Load

def storedLine (r : Record.Mapped) : String :=
  Json.Object.compact [
    ("key", .string (Text.Base64.encode r.key)),
    ("version", .number (.int (.nearest r.version))),
    ("envelope", .string r.envelope)] ++ "\n"

inductive Sink.Error where
  | file (e : Files.Error)
deriving DecidableEq, Repr

def Sink.Error.message : Sink.Error → String
  | .file e => "failed to write record: " ++ e.message

structure Sink (m : Type → Type) where
  write : Record.Mapped → m (Except Sink.Error Unit)
  flush : m (Except Sink.Error Unit)

namespace Sink

variable {m : Type → Type} [Monad m]

def ofResult : Except Files.Error Unit → Except Error Unit
  | .ok u => .ok u
  | .error e => .error (.file e)

def lines (out : Files.Output m) (count : Metrics.Metric → m Unit) : Sink m where
  write r := do
    match ← out.append (storedLine r) with
    | .ok _ =>
      count .recordWritten
      return .ok ()
    | .error e => return .error (.file e)
  flush := return ofResult (← out.flush)

def shown (r : Record.Mapped) : String :=
  s!"record: {r.envelope} key={Record.Key.printable r.key} version={r.version}"

def printing (print : String → m Unit) (count : Metrics.Metric → m Unit) : Sink m where
  write r := do
    print (shown r)
    count .recordWritten
    return .ok ()
  flush := return .ok ()

end Sink

end DumpImport.Load
