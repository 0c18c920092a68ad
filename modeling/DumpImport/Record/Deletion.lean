import DumpImport.Record.Document
import DumpImport.Record.Error

namespace DumpImport.Record

inductive Deletion where
  | removed
  | archived
deriving DecidableEq, Repr

namespace Deletion

def wrapper : Deletion → String
  | removed => Field.removed
  | archived => Field.archived

def dateField : Deletion → String
  | removed => Field.removedDate
  | archived => Field.archivedDate

def event (d : Deletion) (outer inner : Document) : Document :=
  let inner := Document.copy Field.lastModified outer inner
  let inner := Document.copy d.dateField outer inner
  let inner := Document.copy Field.timestamp outer inner
  Json.Object.insert inner Field.type (.string deleteType)

def unwrap (d : Deletion) (o : Document) : Except Error (Document × Bool) :=
  match Json.Object.get? o d.wrapper with
  | none => .ok (o, false)
  | some (.object inner) => .ok (d.event o inner, true)
  | some _ => .error (.invalid (.wrapperNotObject d.wrapper))

end Deletion

structure Unwrapped where
  document : Document
  removed : Bool
  archived : Bool

/-- What was archived is looked for in what was removed. -/
def Document.unwrap (o : Document) : Except Error Unwrapped := do
  let (o, removed) ← Deletion.removed.unwrap o
  let (o, archived) ← Deletion.archived.unwrap o
  .ok ⟨o, removed, archived⟩

end DumpImport.Record
