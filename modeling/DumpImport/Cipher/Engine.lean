import DumpImport.Cipher.Counter
import DumpImport.Text.Base64
import DumpImport.Text.Blank

namespace DumpImport.Cipher

inductive Part where
  | key
  | iv
  | payload
deriving DecidableEq, Repr

def Part.name : Part → String
  | .key => "key"
  | .iv => "initialisation vector"
  | .payload => "payload"

inductive Error where
  | base64 (part : Part) (e : Text.Base64.Error)
  | keyLength (n : Nat)
  | ivLength (n : Nat)
deriving DecidableEq, Repr

def Error.message : Error → String
  | .base64 p e => p.name ++ " is not valid base64: " ++ e.message
  | .keyLength n => s!"unsupported key length of {n} bytes"
  | .ivLength n => s!"initialisation vector must be 16 bytes, got {n}"

def decode (p : Part) (s : String) : Except Error Bytes :=
  match Text.Base64.decode (Text.trim s) with
  | .ok bs => .ok bs
  | .error e => .error (.base64 p e)

def isKeyLength (n : Nat) : Bool := n == 16 || n == 24 || n == 32

/-- The vector is looked at before the key. -/
def Keystream.ofBytes (E : BlockFunction) (key iv : Bytes) : Except Error Keystream :=
  match Block.ofBytes? iv with
  | none => .error (.ivLength iv.length)
  | some b =>
    if isKeyLength key.length then .ok (.start (E key) b) else .error (.keyLength key.length)

def Keystream.ofText (E : BlockFunction) (key iv : String) : Except Error Keystream := do
  let k ← decode .key key
  let v ← decode .iv iv
  Keystream.ofBytes E k v

structure Sealed where
  iv : String
  body : String
deriving DecidableEq, Repr

def encrypt (E : BlockFunction) (key : String) (iv : Block) (plain : Bytes) : Except Error Sealed := do
  let k ← decode .key key
  let s ← Keystream.ofBytes E k iv.bytes
  .ok ⟨Text.Base64.encode iv.bytes, Text.Base64.encode (s.apply plain).1⟩

def decrypt (E : BlockFunction) (key iv body : String) : Except Error Bytes := do
  let s ← Keystream.ofText E key iv
  let bs ← decode .payload body
  .ok (s.apply bs).1

end DumpImport.Cipher
