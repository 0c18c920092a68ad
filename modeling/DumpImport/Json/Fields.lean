import DumpImport.Json.Printer
import DumpImport.Json.Skip

namespace DumpImport.Json

def Number.described : Number → String
  | .int i => "integer " ++ ticked (Number.text (.int i))
  | .double x => "floating point " ++ ticked (Number.text (.double x))

/-- The value that stands here in words; a bracketed one is left unread. -/
def described : Reader String := fun bs =>
  match bs with
  | [] => .error (.next .expectedValue [])
  | b :: r =>
    if b = 0x6E then literal [0x75, 0x6C, 0x6C] "null" r
    else if b = 0x74 then literal [0x72, 0x75, 0x65] ("boolean " ++ ticked "true") r
    else if b = 0x66 then literal [0x61, 0x6C, 0x73, 0x65] ("boolean " ++ ticked "false") r
    else if b = 0x2D then (number true r).map fun (n, r) => (n.described, r)
    else if isDigit b then (number false (b :: r)).map fun (n, r) => (n.described, r)
    else if b = 0x22 then (string r).map fun (s, r) => ("string " ++ Text.quoted s, r)
    else if b = 0x5B then .ok ("sequence", b :: r)
    else if b = 0x7B then .ok ("map", b :: r)
    else .error (.next .expectedValue (b :: r))

def mismatch (expected : String) : Reader α := fun bs =>
  match described bs with
  | .error f => .error f
  | .ok (found, r) => .error (.here (.wrongType found expected) r)

def text : Reader String := fun bs =>
  match skipBlank bs with
  | [] => .error (.next .eofInValue [])
  | b :: r => if b = 0x22 then string r else mismatch "a string" (b :: r)

structure Layout where
  name : String
  fields : List String
  required : Bool

abbrev Fields := List (String × String)

namespace Layout

def struct (l : Layout) : String := "struct " ++ l.name

def sized (l : Layout) : String :=
  let n := l.fields.length
  s!"{l.struct} with {n} element" ++ if n = 1 then "" else "s"

/-- A repeated field is blamed before its value, past blanks and a closing brace. -/
def duplicate (name : String) (bs : Bytes) : Failure :=
  let rest := skipBlank bs
  .here (.duplicateField name) (if rest.head? = some 0x7D then rest.tail else rest)

def field (l : Layout) (seen : Fields) : Reader Fields := fun bs => do
  let (k, r) ← string bs.tail
  if k ∈ l.fields then
    if (seen.lookup k).isSome then .error (duplicate k r)
    else
      let r ← colon r
      let (v, r) ← text r
      .ok ((k, v) :: seen, r)
  else
    let r ← colon r
    let (_, r) ← skip r
    .ok (seen, r)

def named (l : Layout) : Nat → Bool → Fields → Reader Fields
  | 0, _, _, bs => .error (.next .eofInObject bs)
  | n + 1, first, seen, bs =>
    match Shape.object.next first bs with
    | .error f => .error f
    | .ok (false, r) =>
      match if l.required then l.fields.find? fun k => (seen.lookup k).isNone else none with
      | some k => .error (.here (.missingField k) r.tail)
      | none => .ok (seen, r.tail)
    | .ok (true, r) =>
      match l.field seen r with
      | .error f => .error f
      | .ok (seen, r) => named l n false seen r

def listEnd (bs : Bytes) : Except Failure Bytes :=
  match skipBlank bs with
  | [] => .error (.next .eofInList [])
  | b :: r =>
    if b = 0x5D then .ok r
    else if b = 0x2C then
      let r := skipBlank r
      .error (.next (if r.head? = some 0x5D then .trailingComma else .trailingCharacters) r)
    else .error (.next .trailingCharacters (b :: r))

def positioned (l : Layout) : List String → Nat → Fields → Reader Fields
  | [], _, seen, bs => (listEnd bs).map (seen, ·)
  | k :: ks, i, seen, bs =>
    match Shape.list.next (i == 0) bs with
    | .error f => .error f
    | .ok (false, r) =>
      if l.required then .error (.here (.wrongLength i l.sized) r.tail) else .ok (seen, r.tail)
    | .ok (true, r) =>
      match text r with
      | .error f => .error f
      | .ok (v, r) => positioned l ks (i + 1) ((k, v) :: seen) r

def read (l : Layout) : Reader Fields := fun bs =>
  match skipBlank bs with
  | [] => .error (.next .eofInValue [])
  | b :: r =>
    if b = 0x5B then l.positioned l.fields 0 [] r
    else if b = 0x7B then l.named (r.length + 1) true [] r
    else mismatch l.struct (b :: r)

def parse (l : Layout) (bs : Bytes) : Except Error Fields := whole l.read bs

end Layout

def Fields.text (fs : Fields) (k : String) : String := (fs.lookup k).getD ""

end DumpImport.Json
