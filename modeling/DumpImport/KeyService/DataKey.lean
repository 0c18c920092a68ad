import DumpImport.Json.Fields

namespace DumpImport.KeyService

structure DataKey where
  id : String
  plaintext : String
  ciphertext : String
deriving DecidableEq

namespace DataKey

def layout : Json.Layout :=
  ⟨"DataKeyResult", ["dataKeyEncryptionKeyId", "plaintextDataKey", "ciphertextDataKey"], true⟩

def ofFields (fs : Json.Fields) : DataKey :=
  ⟨fs.text "dataKeyEncryptionKeyId", fs.text "plaintextDataKey", fs.text "ciphertextDataKey"⟩

def parse (bs : Bytes) : Except Json.Error DataKey := (layout.parse bs).map ofFields

def describe (k : DataKey) : String :=
  "DataKeyResult \x7b data_key_encryption_key_id: " ++ Text.quoted k.id ++
    ", plaintext_data_key: \"<redacted>\", ciphertext_data_key: " ++ Text.quoted k.ciphertext ++
    " \x7d"

end DataKey

def plainKeyLayout : Json.Layout := ⟨"DecryptedKey", ["plaintextDataKey"], true⟩

def parsePlainKey (bs : Bytes) : Except Json.Error String :=
  (plainKeyLayout.parse bs).map (·.text "plaintextDataKey")

end DumpImport.KeyService
