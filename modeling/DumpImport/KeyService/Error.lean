import DumpImport.Retry.Run

namespace DumpImport.KeyService

inductive Error where
  | unavailable (operation correlation reason : String)
  | decryptionFailed (keyId correlation : String) (status : Nat)
deriving DecidableEq, Repr

namespace Error

def isRetryable : Error → Bool
  | .unavailable .. => true
  | .decryptionFailed .. => false

def message : Error → String
  | .unavailable operation correlation reason =>
    operation ++ " failed as the data key service is unavailable, dks_correlation_id: '" ++
      correlation ++ "': " ++ reason
  | .decryptionFailed keyId correlation status =>
    "decrypting data key with key encryption key id '" ++ keyId ++
      "' failed, dks_correlation_id: '" ++ correlation ++
      "', data key service returned status code " ++ toString status

end Error

def outcome {α : Type} : Except Error α → Retry.Outcome α Error
  | .ok a => .success a
  | .error e => if e.isRetryable then .retryable e else .fatal e

end DumpImport.KeyService
