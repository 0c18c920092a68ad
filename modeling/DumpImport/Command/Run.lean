import DumpImport.Command.Report
import DumpImport.Dump.Listing
import DumpImport.KeyService.Remote
import DumpImport.Load.Run
import DumpImport.Settings.Credentials
import DumpImport.Text.Uuid

namespace DumpImport.Command

structure Host (m : Type → Type) where
  files : Files m
  print : String → m Unit
  send : Web.Request → m Web.Reply
  random : m Cipher.Block
  now : m Time.Instant
  pause : Time.Span → m Unit
  count : Metrics.Metric → m Unit
  serveMetrics : (address : String) → m Unit

variable {m : Type → Type} [Monad m] {α ε : Type}

namespace Host

def uuid (h : Host m) : m String := return Text.uuid (← h.random).bytes

def draw (h : Host m) : m Record.Draw := return ⟨← h.random, (← h.now).stamp⟩

def keys [MonadStateOf KeyService.Cache m] (h : Host m) (s : Settings) : KeyService.Service m :=
  let remote : KeyService.Remote m := ⟨s.serviceUrl, h.send, h.uuid⟩
  remote.service.retrying s.retry fun operation d => do
    h.count (.retry operation)
    h.pause d

def trace (h : Host m) (s : Settings) : m String := do
  return Record.Envelope.traceOf (← h.files.read s.correlationFile).toOption

def sink (h : Host m) (s : Settings) : m (Except Load.Error (Load.Sink m)) := do
  match s.outputFile with
  | none => return .ok (.printing h.print h.count)
  | some path =>
    match ← h.files.create path with
    | .ok out => return .ok (.lines out h.count)
    | .error e => return .error (.sink (.file e))

end Host

def orFail (failure : ε → Failure) (x : m (Except ε α)) : ExceptT Failure m α :=
  ExceptT.mk do return (← x).mapError failure

def because (headline : String) (message : ε → String) (e : ε) : Failure := ⟨headline, [message e]⟩

def ofLoad (e : Load.Error) : Failure := ⟨e.message, e.cause.toList⟩

def configure (h : Host m) (env : Settings.Environment) :
    ExceptT Failure m (Settings × Record.Window) := do
  let s ← orFail (because "invalid configuration" Settings.Error.message) (pure (Settings.read env))
  if let some address := s.metricsBind then h.serveMetrics address
  let identity ← orFail (because "failed to read data key service client identity"
    Settings.CredentialError.message) (s.identity h.files)
  let trusted ← orFail (because "failed to read data key service trust certificate"
    Settings.CredentialError.message) (s.trusted h.files)
  orFail (fun e => ⟨"failed to construct data key service client", [Web.clientError, e.message]⟩)
    (pure (Web.checkClient identity trusted))
  let w ← orFail (because "invalid filter bounds" Record.Error.message)
    (pure (Record.Window.ofBounds s.earlierThan s.laterThan))
  return (s, w)

def loader (h : Host m) (keys : KeyService.Service m) (s : Settings) (w : Record.Window) :
    ExceptT Failure m (Load.Loader m) := do
  let dataKey ← orFail (because "failed to obtain a data key" KeyService.Error.message) keys.issue
  let mapper : Record.Mapper := ⟨Cipher.Aes.encrypt, w, ← h.uuid, ← h.trace s, dataKey⟩
  let sink ← orFail ofLoad (h.sink s)
  return ⟨Dump.Source.load Cipher.Aes.encrypt h.files keys, h.draw, mapper, sink, h.count⟩

/-- Files are read one at a time, which every limit on their number allows. -/
def run [MonadStateOf KeyService.Cache m] (h : Host m) (env : Settings.Environment) :
    ExceptT Failure m Load.Summary := do
  let (s, w) ← configure h env
  let keys := h.keys s
  let l ← loader h keys s w
  let paths ← orFail (ofLoad ∘ Load.Error.listing) (Dump.list h.files s.inputDirectory)
  orFail ofLoad (l.run paths)

end DumpImport.Command
