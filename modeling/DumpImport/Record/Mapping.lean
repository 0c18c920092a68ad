import DumpImport.Cipher.Aes
import DumpImport.Dump.Collection
import DumpImport.Record.Deletion
import DumpImport.Record.Envelope
import DumpImport.Record.Key
import DumpImport.Record.Window

namespace DumpImport.Record

structure Mapper where
  block : Cipher.BlockFunction
  window : Window
  unitOfWork : String
  trace : String
  dataKey : KeyService.DataKey

structure Draw where
  iv : Cipher.Block
  time : String

structure Mapped where
  key : Bytes
  envelope : String
  /-- Milliseconds of the last modified date. -/
  version : Int
  verdict : Verdict
deriving DecidableEq

def parseDocument (line : String) : Except Error Document :=
  match Json.parse line with
  | .ok (.object o) => .ok o
  | .ok _ => .error (.invalid .notObject)
  | .error e => .error (.invalid (.malformed e))

structure Dates where
  created : DateText
  removed : DateText
  archived : DateText
  lastModified : LastModified

def Document.readDates (o : Document) : Except Error Dates := do
  let created ← Document.dateText Field.created o
  let removed ← Document.dateText Field.removedDate o
  let archived ← Document.dateText Field.archivedDate o
  let lastModified ← Document.lastModified o created.text
  .ok ⟨created, removed, archived, lastModified⟩

def Document.overwriteIf (cond : Bool) (o : Document) (field text : String) : Document :=
  if cond then Json.Object.insert o field (.string text) else o

def Document.withDates (o : Document) (d : Dates) : Document :=
  let o := Document.overwriteIf (d.lastModified.source != .lastModified) o Field.lastModified
    d.lastModified.text
  let o := Document.overwriteIf d.created.modified o Field.created d.created.text
  let o := Document.overwriteIf d.removed.modified o Field.removedDate d.removed.text
  Document.overwriteIf d.archived.modified o Field.archivedDate d.archived.text

def Document.withId (o : Document) (i : Id) : Except Error Document :=
  if i.form.isModified then i.value.map fun v => Json.Object.insert o Field.id v else .ok o

/-- A date that was blanked does not count as altered. -/
def DateText.altered (d : DateText) : Bool := d.modified && Text.trim d.text != ""

def Document.readId (o : Document) : Except Error Id := do
  let i ← Id.of (Json.Object.get? o Field.id)
  if i.form = .invalid then .error (.invalid .missingId) else .ok i

structure Prepared where
  document : Document
  id : Id
  dates : Dates
  changes : Changes
  version : Int

def prepare (line : String) : Except Error Prepared := do
  let u ← (← parseDocument line).unwrap
  let id ← u.document.readId
  let dates ← u.document.readDates
  let o ← u.document.withId id
  let o := o.withDates dates
  let version ← millisOf dates.lastModified.text
  .ok ⟨o, id, dates, ⟨dates.created.altered, dates.removed.altered, dates.archived.altered,
    u.removed, u.archived⟩, version⟩

def Mapper.content (m : Mapper) (c : Dump.Collection) (p : Prepared) (body : Cipher.Sealed) :
    Content :=
  ⟨p.document, p.id, p.dates.lastModified, p.changes, body, m.dataKey, c.database, c.collection⟩

def Mapper.encrypt (m : Mapper) (d : Draw) (p : Prepared) : Except Error Cipher.Sealed :=
  match Cipher.encrypt m.block m.dataKey.plaintext d.iv (Bytes.ofText (Json.Object.compact p.document)) with
  | .ok b => .ok b
  | .error e => .error (.cipher e)

def Mapper.map (m : Mapper) (c : Dump.Collection) (d : Draw) (line : String) :
    Except Error Mapped := do
  let p ← prepare line
  let body ← m.encrypt d p
  let envelope ← Envelope.build ⟨m.unitOfWork, m.trace, d.time⟩ (m.content c p body)
  let key ← Key.ofText envelope
  .ok ⟨key, envelope, p.version, m.window.classify p.version⟩

end DumpImport.Record
