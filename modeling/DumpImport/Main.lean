import DumpImport.Command.Run
import DumpImport.Metrics.Page
import Std.Time.DateTime.Timestamp

namespace DumpImport.Command

abbrev Session := StateT KeyService.Cache IO

def fileError : IO.Error → Files.Error
  | .noFileOrDirectory .. => .notFound
  | .permissionDenied .. => .denied
  | .inappropriateType _ 20 _ => .notDirectory
  | .inappropriateType _ 21 _ => .isDirectory
  | e => .other (toString e)

def attempt {α : Type} (x : IO α) : IO (Except Files.Error α) := do
  match ← x.toBaseIO with
  | .ok a => return .ok a
  | .error e => return .error (fileError e)

def contents (path : String) : IO (Except Files.Error (Except Files.Error Bytes)) := do
  match ← attempt (IO.FS.Handle.mk path .read) with
  | .error e => return .error e
  | .ok h => return .ok ((← attempt h.readBinToEnd).map (·.data.toList))

def entries (directory : String) : IO (Except Files.Error (List Files.Entry)) := attempt do
  let here : IO.FS.DirEntry := ⟨directory, "."⟩
  (← here.path.readDir).toList.mapM fun e => do
    let isFile := match ← e.path.metadata.toBaseIO with
      | .ok d => match d.type with
        | .file => true
        | _ => false
      | .error _ => false
    return ⟨e.fileName, isFile⟩

def create (path : String) : IO (Except Files.Error (Files.Output Session)) := do
  match ← attempt (IO.FS.Handle.mk path .write) with
  | .error e => return .error e
  | .ok h => return .ok ⟨fun s => attempt (h.putStr s), attempt h.flush⟩

def system : Files Session where
  contents path := contents path
  entries directory := entries directory
  create path := create path

def randomBlock : IO Cipher.Block := do
  let bs := (← IO.getRandomBytes 16).data.toList
  return .ofNat (bs.foldl (fun n b => n * 256 + b.toNat) 0)

def currentTime : IO Time.Instant := do
  let n := (← Std.Time.Timestamp.now).toNanosecondsSinceUnixEpoch.val
  return ⟨n / 1000000000, (n % 1000000000).toNat⟩

def longestSleep : Nat := 0xFFFFFFFF

/-- No connection can be opened from here, so that every request stays without a reply. -/
def host : Host Session where
  files := system
  print s := IO.println s
  send _ := return .dropped
  random := randomBlock
  now := currentTime
  pause d := IO.sleep (UInt32.ofNat (min d.millis longestSleep))
  count _ := return
  serveMetrics address := do
    if let .error e := Metrics.bindAddress address then
      IO.println s!"failed to serve metrics on {address}: {e.message}"

def environment : IO Settings.Environment := do
  let given ← Settings.names.filterMapM fun name => do
    return (← IO.getEnv name).map fun v => (name, v)
  return fun name => given.lookup name

end DumpImport.Command

open DumpImport.Command in
def main : IO UInt32 := do
  match ← ((run host (← environment)).run).run' .empty with
  | .ok _ => return 0
  | .error e =>
    IO.eprint e.report
    return 1
