import DumpImport.Text.Pattern
import DumpImport.Text.Word

namespace DumpImport.Dump

structure Collection where
  database : String
  collection : String
deriving DecidableEq, Repr

namespace Collection

def unset : Collection := ⟨"UNSET", "UNSET"⟩

def name (c : Collection) : String := c.database ++ "." ++ c.collection

def ending : List Char := ".json.gz.enc".toList

/-- A letter of the ending in either case; the long s counts as an s. -/
def foldsTo (lower c : Char) : Bool := c.toLower == lower || lower == 's' && c == '\u017f'

section Name

variable (word : Char → Bool)

def isNamePart (c : Char) : Bool := c == '-' || word c

def namePattern : List Text.Item :=
  [.run (isNamePart word), .one (· == '.'), .run (isNamePart word), .one (· == '.'), .run Char.isDigit] ++
    ending.map fun l => .one (foldsTo l)

def ofName? (name : List Char) : Option Collection :=
  match Text.search (namePattern word) name with
  | some (d :: c :: _) => some ⟨String.ofList d, String.ofList c⟩
  | _ => none

end Name

end Collection

def fileName (path : List Char) : List Char :=
  let parts := (path.splitOn '/').filter fun p => !p.isEmpty && p != ['.']
  match parts.getLast? with
  | some p => if p = ['.', '.'] then [] else p
  | none => []

namespace Collection

def named (word : Char → Bool) (path : String) : Collection :=
  (ofName? word (fileName path.toList)).getD unset

def ofPath (path : String) : Collection := named Text.isWord path

end Collection

/-- Every `gz.enc` of a path gives way to `encryption.json`. -/
def sidecar : List Char → List Char
  | 'g' :: 'z' :: '.' :: 'e' :: 'n' :: 'c' :: cs => "encryption.json".toList ++ sidecar cs
  | c :: cs => c :: sidecar cs
  | [] => []

def sidecarPath (path : String) : String := String.ofList (sidecar path.toList)

end DumpImport.Dump
