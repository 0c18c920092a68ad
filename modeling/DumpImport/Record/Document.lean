import DumpImport.Json.Printer

namespace DumpImport

namespace Json.Value

def primitive? : Value → Option String
  | .string s => some s
  | .number n => some n.text
  | .bool b => some (if b then "true" else "false")
  | _ => none

/-- The primitive in an object whose one key is `k`. Dates and object ids are wrapped so. -/
def wrapped? (k : String) : Value → Option String
  | .object [(l, v)] => if l = k then v.primitive? else none
  | _ => none

end Json.Value

namespace Record

abbrev Document := Json.Object

namespace Field

def id : String := "_id"
def type : String := "@type"
def lastModified : String := "_lastModifiedDateTime"
def created : String := "createdDateTime"
def removedDate : String := "_removedDateTime"
def archivedDate : String := "_archivedDateTime"
def timestamp : String := "timestamp"
def removed : String := "_removed"
def archived : String := "_archived"
def date : String := "$date"
def oid : String := "$oid"

/-- Dates that are unwrapped inside an object id too, in the order in which they are tried. -/
def dates : List String := [created, lastModified, removedDate, archivedDate]

end Field

def importType : String := "MONGO_IMPORT"
def deleteType : String := "MONGO_DELETE"

/-- What a target lacks or has otherwise is taken from the source, if that has it. -/
def Document.copy (field : String) (source target : Document) : Document :=
  match Json.Object.get? source field with
  | some v => Json.Object.insert target field v
  | none => target

end Record

end DumpImport
