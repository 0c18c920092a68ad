import DumpImport.Retry.Policy
import DumpImport.Text.Number

namespace DumpImport

structure Settings where
  serviceUrl : String
  identityCert : Option String
  identityKey : Option String
  trustCert : Option String
  requestTimeout : Time.Span
  retry : Retry.Policy
  earlierThan : Option String
  laterThan : Option String
  correlationFile : String
  inputDirectory : String
  outputFile : Option String
  maxConcurrentFiles : Nat
  metricsBind : Option String

namespace Settings

inductive Error where
  | unparseable (name : String)
deriving DecidableEq, Repr

def Error.message : Error → String
  | .unparseable v => "Failed to parse environment variable " ++ v

abbrev Environment := String → Option String

def names : List String := [
  "DATA_KEY_SERVICE_URL", "DKS_IDENTITY_CERT", "DKS_IDENTITY_KEY", "DKS_TRUST_CERT",
  "DKS_REQUEST_TIMEOUT", "RETRY_MAX_ATTEMPTS", "RETRY_INITIAL_BACKOFF", "RETRY_BACKOFF_MULTIPLIER",
  "FILTER_EARLIER_THAN", "FILTER_LATER_THAN", "CORRELATION_ID_FILE", "INPUT_DIRECTORY",
  "OUTPUT_FILE", "MAX_CONCURRENT_FILES", "METRICS_BIND"]

def word? (s : String) : Option UInt32 := (Text.number? 0xFFFFFFFF s).map UInt32.ofNat

def size? (s : String) : Option Nat := Text.number? 0xFFFFFFFFFFFFFFFF s

def span? (s : String) : Option Time.Span := (size? s).map fun n => .ofMillis (UInt64.ofNat n)

/-- A variable that is set but empty counts as set. -/
def parsed {α : Type} (env : Environment) (name fallback : String) (read : String → Option α) :
    Except Error α :=
  match read ((env name).getD fallback) with
  | some a => .ok a
  | none => .error (.unparseable name)

def read (env : Environment) : Except Error Settings := do
  let requestTimeout ← parsed env "DKS_REQUEST_TIMEOUT" "5000" span?
  let maxAttempts ← parsed env "RETRY_MAX_ATTEMPTS" "5" word?
  let initial ← parsed env "RETRY_INITIAL_BACKOFF" "1000" span?
  let multiplier ← parsed env "RETRY_BACKOFF_MULTIPLIER" "2" word?
  let maxConcurrentFiles ← parsed env "MAX_CONCURRENT_FILES" "4" size?
  .ok {
    serviceUrl := (env "DATA_KEY_SERVICE_URL").getD "http://localhost:8090"
    identityCert := env "DKS_IDENTITY_CERT"
    identityKey := env "DKS_IDENTITY_KEY"
    trustCert := env "DKS_TRUST_CERT"
    requestTimeout
    retry := .of maxAttempts initial multiplier
    earlierThan := env "FILTER_EARLIER_THAN"
    laterThan := env "FILTER_LATER_THAN"
    correlationFile := (env "CORRELATION_ID_FILE").getD "/opt/emr/correlation_id.txt"
    inputDirectory := (env "INPUT_DIRECTORY").getD "./data"
    outputFile := env "OUTPUT_FILE"
    maxConcurrentFiles
    metricsBind := env "METRICS_BIND" }

end Settings

end DumpImport
