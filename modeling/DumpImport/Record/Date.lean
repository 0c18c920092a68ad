import DumpImport.Record.Document
import DumpImport.Record.Error
import DumpImport.Time.Reader

namespace DumpImport.Record

def parseDate (s : String) : Except Error Time.Instant :=
  match Time.read s with
  | some t => .ok t
  | none => .error (.unparseableDate s)

def canonicalDate (s : String) : Except Error String := (parseDate s).map (·.canonical)

def millisOf (s : String) : Except Error Int := (parseDate s).map (·.millis)

def epochDate : String := "1980-01-01T00:00:00.000+0000"

def epochMillis : Int := 315532800000

inductive DateShape where
  | absent
  | wrapped (date : String)
  | plain (date : String)
  | malformed
deriving DecidableEq, Repr

def DateShape.of : Option Json.Value → DateShape
  | none => .absent
  | some v =>
    match v.wrapped? Field.date with
    | some d => .wrapped d
    | none =>
      match v.primitive? with
      | some d => .plain d
      | none => .malformed

structure DateText where
  text : String
  modified : Bool
deriving DecidableEq, Repr

def DateShape.text : DateShape → Except Error DateText
  | .absent => .ok ⟨"", false⟩
  | .wrapped d => (canonicalDate d).map (⟨·, true⟩)
  | .plain d => .ok ⟨d, false⟩
  | .malformed => .ok ⟨"", true⟩

def Document.dateText (field : String) (o : Document) : Except Error DateText :=
  (DateShape.of (Json.Object.get? o field)).text

inductive DateSource where
  | lastModified
  | lastModifiedStripped
  | created
  | epoch
deriving DecidableEq, Repr

def DateSource.name : DateSource → String
  | .lastModified => "_lastModifiedDateTime"
  | .lastModifiedStripped => "_lastModifiedDateTimeStripped"
  | .created => "createdDateTime"
  | .epoch => "epoch"

structure LastModified where
  text : String
  source : DateSource
deriving DecidableEq, Repr

def LastModified.fallback (created : String) : LastModified :=
  if Text.trim created = "" then ⟨epochDate, .epoch⟩ else ⟨created, .created⟩

def LastModified.of (v : Option Json.Value) (created : String) : Except Error LastModified :=
  match DateShape.of v with
  | .wrapped d => (canonicalDate d).map (⟨·, .lastModifiedStripped⟩)
  | .plain d => .ok ⟨d, .lastModified⟩
  | .absent => .ok (.fallback created)
  | .malformed => .ok (.fallback created)

def Document.lastModified (o : Document) (created : String) : Except Error LastModified :=
  LastModified.of (Json.Object.get? o Field.lastModified) created

def Document.hasWrappedDate (o : Document) (field : String) : Bool :=
  match DateShape.of (Json.Object.get? o field) with
  | .wrapped _ => true
  | _ => false

structure Flattened where
  document : Document
  error : Option Error

def Document.flattenDate (o : Document) (field : String) : Except Error Document :=
  match DateShape.of (Json.Object.get? o field) with
  | .wrapped d => (canonicalDate d).map fun c => Json.Object.insert o field (.string c)
  | _ => .ok o

def Document.flattenDates (o : Document) : List String → Flattened
  | [] => ⟨o, none⟩
  | f :: fs =>
    match flattenDate o f with
    | .ok o => flattenDates o fs
    | .error e => ⟨o, some e⟩

end DumpImport.Record
