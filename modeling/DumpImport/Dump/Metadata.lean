import DumpImport.Json.Fields

namespace DumpImport.Dump

structure Metadata where
  keyId : String
  wrappedKey : String
  iv : String
  keyHash : String
  cipher : String
  keyCipher : String
deriving DecidableEq

namespace Metadata

def layout : Json.Layout :=
  ⟨"EncryptionMetadata", ["keyEncryptionKeyId", "encryptedEncryptionKey", "initialisationVector",
    "keyEncryptionKeyHash", "encryptionCipher", "keyEncryptionCipher"], false⟩

def ofFields (fs : Json.Fields) : Metadata :=
  ⟨fs.text "keyEncryptionKeyId", fs.text "encryptedEncryptionKey", fs.text "initialisationVector",
    fs.text "keyEncryptionKeyHash", fs.text "encryptionCipher", fs.text "keyEncryptionCipher"⟩

def parse (bs : Bytes) : Except Json.Error Metadata := (layout.parse bs).map ofFields

end Metadata

end DumpImport.Dump
