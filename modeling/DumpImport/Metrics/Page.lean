import DumpImport.Text.Number

namespace DumpImport.Metrics

inductive PageStatus where
  | found
  | notFound
  | wrongMethod
deriving DecidableEq, Repr

def PageStatus.code : PageStatus → Nat
  | .found => 200
  | .notFound => 404
  | .wrongMethod => 405

def page (method target : String) : PageStatus :=
  let path := target.toList.takeWhile fun c => c != '?' && c != '#'
  if path ≠ "/metrics".toList then .notFound
  else if method = "GET" ∨ method = "HEAD" then .found else .wrongMethod

inductive BindError where
  | noPort
  | badPort
deriving DecidableEq, Repr

def BindError.message : BindError → String
  | .noPort => "invalid socket address"
  | .badPort => "invalid port value"

def bindAddress (s : String) : Except BindError (String × Nat) :=
  let port := (s.toList.reverse.takeWhile (· != ':')).reverse
  if port.length = s.toList.length then .error .noPort
  else match Text.number? 65535 (String.ofList port) with
    | none => .error .badPort
    | some p => .ok (String.ofList (s.toList.take (s.toList.length - port.length - 1)), p)

end DumpImport.Metrics
