import DumpImport.KeyService.DataKey
import DumpImport.KeyService.Error

namespace DumpImport.KeyService

def issuing : String := "issue_data_key"

def decrypting : String := "decrypt_key"

structure Service (m : Type → Type) where
  issue : m (Except Error DataKey)
  decrypt (keyId wrapped : String) : m (Except Error String)
  clear : m Unit

def Service.retrying {m : Type → Type} [Monad m] (s : Service m) (p : Retry.Policy)
    (pause : (operation : String) → Time.Span → m Unit) : Service m where
  issue := p.run (pause issuing) (outcome <$> s.issue)
  decrypt keyId wrapped := p.run (pause decrypting) (outcome <$> s.decrypt keyId wrapped)
  clear := s.clear

end DumpImport.KeyService
