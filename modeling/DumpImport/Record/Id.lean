import DumpImport.Json.Reader
import DumpImport.Record.Date

namespace DumpImport.Record

inductive IdForm where
  | string
  | object
  | flattenedOid
  | flattenedDates
  | invalid
deriving DecidableEq, Repr

namespace IdForm

def isModified : IdForm → Bool
  | flattenedOid | flattenedDates => true
  | _ => false

def isString : IdForm → Bool
  | string | flattenedOid => true
  | _ => false

end IdForm

structure Id where
  text : String
  form : IdForm
deriving DecidableEq, Repr

namespace Id

def value (i : Id) : Except Error Json.Value :=
  if i.form = .invalid then .error (.invalid .invalidId)
  else if i.form.isString then .ok (.string i.text)
  else match Json.parse i.text with
    | .ok v => .ok v
    | .error e => .error (.json e)

def ofObject (o : Document) : Except Error Id :=
  if Field.dates.any o.hasWrappedDate then
    match o.flattenDates Field.dates with
    | ⟨o, none⟩ => .ok ⟨Json.Object.compact o, .flattenedDates⟩
    | ⟨_, some e⟩ => .error e
  else .ok ⟨Json.Object.compact o, .object⟩

def of : Option Json.Value → Except Error Id
  | none => .ok ⟨"", .invalid⟩
  | some v =>
    match v.wrapped? Field.oid with
    | some oid => .ok ⟨oid, .flattenedOid⟩
    | none =>
      match v with
      | .object o => ofObject o
      | v => .ok (match v.primitive? with
        | some s => ⟨s, .string⟩
        | none => ⟨"", .invalid⟩)

end Id

end DumpImport.Record
