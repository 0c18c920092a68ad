import DumpImport.KeyService.DataKey
import DumpImport.Record.Id

namespace DumpImport.Record

structure Stamp where
  unitOfWork : String
  trace : String
  time : String

structure Changes where
  created : Bool
  removed : Bool
  archived : Bool
  removedRecord : Bool
  archivedRecord : Bool
deriving DecidableEq, Repr

structure Content where
  document : Document
  id : Id
  lastModified : LastModified
  changes : Changes
  body : Cipher.Sealed
  dataKey : KeyService.DataKey
  database : String
  collection : String

namespace Envelope

def kind : String := "HDI"
def version : String := "0.1.0"
def traceNotSet : String := "NOT_SET"

def typeOf (o : Document) : String :=
  ((Json.Object.get? o Field.type).bind Json.Value.primitive?).getD importType

def encryption (c : Content) : Json.Object := [
  ("keyEncryptionKeyId", .string c.dataKey.id),
  ("initialisationVector", .string c.body.iv),
  ("encryptedEncryptionKey", .string c.dataKey.ciphertext)]

def message (c : Content) (id : Json.Value) : Json.Object := [
  (Field.type, .string (typeOf c.document)),
  (Field.id, id),
  ("mongo_format_stripped_from_id", .bool c.id.form.isModified),
  ("last_modified_date_time_was_altered", .bool (c.lastModified.source != .lastModified)),
  ("created_date_time_was_altered", .bool c.changes.created),
  ("removed_date_time_was_altered", .bool c.changes.removed),
  ("archived_date_time_was_altered", .bool c.changes.archived),
  ("historic_removed_record_altered_on_import", .bool c.changes.removedRecord),
  ("historic_archived_record_altered_on_import", .bool c.changes.archivedRecord),
  (Field.lastModified, .string c.lastModified.text),
  ("timestamp_created_from", .string c.lastModified.source.name),
  ("collection", .string c.collection),
  ("db", .string c.database),
  ("dbObject", .string c.body.body),
  ("encryption", .object (encryption c))]

def value (s : Stamp) (c : Content) (id : Json.Value) : Json.Value := .object [
  ("unitOfWorkId", .string s.unitOfWork),
  ("timestamp", .string s.time),
  ("traceId", .string s.trace),
  (Field.type, .string kind),
  ("version", .string version),
  ("message", .object (message c id))]

def build (s : Stamp) (c : Content) : Except Error String := do
  let id ← c.id.value
  .ok (value s c id).compact

def traceOf (file : Option Bytes) : String :=
  match file.bind Text.Utf8.decode? with
  | none => traceNotSet
  | some cs =>
    let t := Text.trim (String.ofList cs)
    if t = "" then traceNotSet else t

end Envelope

end DumpImport.Record
