import DumpImport.Cipher.Engine
import DumpImport.Dump.Collection
import DumpImport.Dump.Lines
import DumpImport.Dump.Metadata
import DumpImport.Files.Basic
import DumpImport.Gzip.Member
import DumpImport.KeyService.Service

namespace DumpImport.Dump

inductive ReadError where
  | file (e : Files.Error)
  | gzip (e : Gzip.Error)

def ReadError.message : ReadError → String
  | .file e => e.message
  | .gzip e => e.message

inductive Error where
  | unreadable (path : String) (e : ReadError)
  | metadata (path : String) (e : Json.Error)
  | key (path : String) (e : KeyService.Error)
  | cipher (path : String) (e : Cipher.Error)

def Error.message : Error → String
  | .unreadable path e => "failed to read " ++ path ++ ": " ++ e.message
  | .metadata path e => "failed to parse encryption metadata " ++ path ++ ": " ++ e.message
  | .key path e => "failed to decrypt the data key for " ++ path ++ ": " ++ e.message
  | .cipher path e => "failed to set up decryption of " ++ path ++ ": " ++ e.message

structure Source where
  collection : Collection
  lines : List String
  failure : Option Error

namespace Source

def ofBytes (path : String) (k : Cipher.Keystream) (bs : Bytes) : Source :=
  let o := Gzip.expand (k.apply bs).1
  let (lines, failure, _) := (Reader.ofBytes o.bytes o.error).drain
  ⟨.ofPath path, lines, failure.map fun e => .unreadable path (.gzip e)⟩

def ofContents (path : String) (k : Cipher.Keystream) : Except Files.Error Bytes → Source
  | .ok bs => ofBytes path k bs
  | .error e => ⟨.ofPath path, [], some (.unreadable path (.file e))⟩

variable {m : Type → Type} [Monad m]

def metadata (fs : Files m) (path : String) : m (Except Error Metadata) := do
  match ← fs.read path with
  | .error e => return .error (.unreadable path (.file e))
  | .ok bs => return (Metadata.parse bs).mapError (.metadata path)

def load (E : Cipher.BlockFunction) (fs : Files m) (keys : KeyService.Service m)
    (path : String) : m (Except Error Source) := do
  match ← metadata fs (sidecarPath path) with
  | .error e => return .error e
  | .ok md =>
    match ← keys.decrypt md.keyId md.wrappedKey with
    | .error e => return .error (.key path e)
    | .ok key =>
      match ← fs.contents path with
      | .error e => return .error (.unreadable path (.file e))
      | .ok c =>
        return match Cipher.Keystream.ofText E key md.iv with
        | .error e => .error (.cipher path e)
        | .ok k => .ok (ofContents path k c)

end Source

end DumpImport.Dump
