import DumpImport.KeyService.Cache
import DumpImport.KeyService.Service
import DumpImport.Web.Exchange

namespace DumpImport.KeyService

structure Remote (m : Type → Type) where
  base : String
  send : Web.Request → m Web.Reply
  correlation : m String

namespace Remote

def trimBase (s : String) : String := String.ofList (Text.dropTail (· == '/') s.toList)

def correlationField : String := "correlationId"

def issueRequest (base correlation : String) : Except Web.Url.Error Web.Request := do
  let u ← Web.Url.parse (trimBase base ++ "/datakey")
  .ok ⟨"GET", u.addQuery [(correlationField, correlation)], none, ""⟩

def decryptRequest (base keyId wrapped correlation : String) :
    Except Web.Url.Error Web.Request := do
  let u ← Web.Url.parse (trimBase base ++ "/datakey/actions/decrypt")
  .ok ⟨"POST", u.addQuery [("keyId", keyId), (correlationField, correlation)], some "text/plain",
    wrapped⟩

inductive Reason where
  | contact (f : Web.Failure)
  | status (n : Nat)
  | unreadable

def Reason.message : Reason → String
  | .contact f => "error contacting data key service: " ++ f.message
  | .status n => "data key service returned status code " ++ toString n
  | .unreadable => "invalid data key service response: error decoding response body"

def issueAnswer (correlation : String) (status : Nat) (body : Bytes) : Except Error DataKey :=
  let unavailable (r : Reason) := Error.unavailable issuing correlation r.message
  if status = 201 then (DataKey.parse body).mapError fun _ => unavailable .unreadable
  else .error (unavailable (.status status))

def decryptAnswer (keyId correlation : String) (status : Nat) (body : Bytes) :
    Except Error String :=
  let unavailable (r : Reason) := Error.unavailable decrypting correlation r.message
  if status = 200 then (parsePlainKey body).mapError fun _ => unavailable .unreadable
  else if status = 400 then .error (.decryptionFailed keyId correlation status)
  else .error (unavailable (.status status))

def noContact (operation correlation : String) (f : Web.Failure) : Error :=
  .unavailable operation correlation (Reason.contact f).message

def sendable (operation correlation : String) :
    Except Web.Url.Error Web.Request → Except Error Web.Request
  | .error e => .error (noContact operation correlation (.unsendable e))
  | .ok q =>
    if Web.Url.isWeb q.url.scheme then .ok q
    else .error (noContact operation correlation (.unsendable (.notWeb q.url.text)))

def settle {α : Type} (operation correlation : String) (u : Web.Url)
    (answer : Nat → Bytes → Except Error α) : Web.Reply → Except Error α
  | .dropped => .error (noContact operation correlation (.unanswered u))
  | .answer status body => answer status body

variable {m : Type → Type} [Monad m] {α : Type}

def ask (r : Remote m) (operation : String)
    (request : (correlation : String) → Except Web.Url.Error Web.Request)
    (answer : (correlation : String) → Nat → Bytes → Except Error α) : m (Except Error α) := do
  let id ← r.correlation
  match sendable operation id (request id) with
  | .error e => return .error e
  | .ok q => return settle operation id q.url (answer id) (← r.send q)

def issue (r : Remote m) : m (Except Error DataKey) :=
  r.ask issuing (issueRequest r.base) issueAnswer

def decrypt (r : Remote m) (keyId wrapped : String) : m (Except Error String) :=
  r.ask decrypting (decryptRequest r.base keyId wrapped) (decryptAnswer keyId)

def service [MonadStateOf Cache m] (r : Remote m) : Service m where
  issue := r.issue
  decrypt keyId wrapped := do
    match (← getThe Cache).get? wrapped keyId with
    | some plaintext => return .ok plaintext
    | none =>
      match ← r.decrypt keyId wrapped with
      | .ok plaintext =>
        modifyThe Cache (·.insert wrapped keyId plaintext)
        return .ok plaintext
      | .error e => return .error e
  clear := set Cache.empty

end Remote

end DumpImport.KeyService
