import DumpImport.Text.Utf8
import DumpImport.Web.Pem

namespace DumpImport.Web

structure Identity where
  certificate : Bytes
  privateKey : Bytes

inductive Identity.Error where
  | wrongKeyFormat
  | noCertificate
  | unreadable (e : Pem.Error)
deriving DecidableEq, Repr

def Identity.Error.message : Identity.Error → String
  | .wrongKeyFormat => "expected PKCS#8 PEM"
  | .noCertificate => "at least one certificate must be provided to create an identity"
  | .unreadable e => e.message

def certificateBlock : String := "CERTIFICATE"

def keyBlock : String := "PRIVATE KEY"

def Identity.check (i : Identity) : Except Identity.Error Unit := do
  let key := i.privateKey.lossyText
  if !key.startsWith (Pem.first keyBlock) then throw .wrongKeyFormat
  (Pem.find keyBlock key).mapError .unreadable
  let n ← (Pem.count certificateBlock i.certificate.lossyText).mapError .unreadable
  if n = 0 then throw .noCertificate

def checkTrusted (certificate : Bytes) : Except Identity.Error Unit :=
  (Pem.find certificateBlock certificate.lossyText).mapError .unreadable

def clientError : String := "builder error"

def checkClient (identity : Option Identity) (trusted : Option Bytes) :
    Except Identity.Error Unit := do
  if let some i := identity then i.check
  if let some t := trusted then checkTrusted t

end DumpImport.Web
