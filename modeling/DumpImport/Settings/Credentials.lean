import DumpImport.Files.Basic
import DumpImport.Settings.Basic
import DumpImport.Web.Identity

namespace DumpImport.Settings

inductive CredentialError where
  | incomplete
  | file (e : Files.Error)
deriving DecidableEq, Repr

def CredentialError.message : CredentialError → String
  | .incomplete => "DKS_IDENTITY_CERT and DKS_IDENTITY_KEY must be set together"
  | .file e => e.message

variable {m : Type → Type} [Monad m]

def identity (s : Settings) (fs : Files m) :
    m (Except CredentialError (Option Web.Identity)) := do
  match s.identityCert, s.identityKey with
  | none, none => return .ok none
  | some cert, some key =>
    match ← fs.read cert with
    | .error e => return .error (.file e)
    | .ok cert =>
      match ← fs.read key with
      | .error e => return .error (.file e)
      | .ok key => return .ok (some ⟨cert, key⟩)
  | _, _ => return .error .incomplete

def trusted (s : Settings) (fs : Files m) : m (Except CredentialError (Option Bytes)) := do
  match s.trustCert with
  | none => return .ok none
  | some path =>
    match ← fs.read path with
    | .error e => return .error (.file e)
    | .ok bs => return .ok (some bs)

end DumpImport.Settings
