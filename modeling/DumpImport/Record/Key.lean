import DumpImport.Gzip.Checksum
import DumpImport.Json.Reader
import DumpImport.Record.Document
import DumpImport.Record.Error
import DumpImport.Text.Hex

namespace DumpImport.Record.Key

/-- A bare id is wrapped, so that every key holds an object. -/
def identifier? (envelope : Json.Value) : Option Json.Object :=
  match envelope with
  | .object o =>
    match Json.Object.get? o "message" with
    | some (.object m) =>
      match Json.Object.get? m Field.id with
      | some (.object id) => some id
      | some (.string s) => some [("id", .string s)]
      | some (.number n) => some [("id", .string n.text)]
      | _ => none
    | _ => none
  | _ => none

def sortKeys (o : Json.Object) : Json.Object :=
  o.mergeSort fun a b => decide (a.1 ≤ b.1)

def bigEndian (n : UInt32) : Bytes :=
  [(n >>> 24).toUInt8, (n >>> 16).toUInt8, (n >>> 8).toUInt8, n.toUInt8]

def ofId (id : Json.Object) : Bytes :=
  let t := Text.Utf8.encode (Json.Value.render (.object (sortKeys id)))
  bigEndian (Gzip.crc32 t) ++ t

def ofEnvelope (envelope : Json.Value) : Bytes :=
  match identifier? envelope with
  | some id => ofId id
  | none => []

def ofText (envelope : String) : Except Error Bytes :=
  match Json.parse envelope with
  | .ok v => .ok (ofEnvelope v)
  | .error e => .error (.json e)

def escapeByte (b : UInt8) : List Char := '\\' :: 'x' :: Text.Hex.upper b

def printable (key : Bytes) : String :=
  if key.length ≤ 4 then key.lossyText
  else String.ofList ((key.take 4).flatMap escapeByte ++ Text.Utf8.lossy (key.drop 4))

end DumpImport.Record.Key
