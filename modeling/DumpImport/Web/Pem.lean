/-!
Armoured blocks in a text. What stands between a block's first and last line is not looked into.
-/
namespace DumpImport.Web.Pem

inductive Error where
  | noBlock
  | unfinished
deriving DecidableEq, Repr

def Error.message : Error → String
  | .noBlock => "no start line"
  | .unfinished => "bad end line"

def isTrailing (c : Char) : Bool := c.toNat ≤ 0x20

def lines (s : String) : List String :=
  (s.splitOn "\n").map fun l => String.ofList (l.toList.reverse.dropWhile isTrailing).reverse

def dashes : String := "-----"

def first (name : String) : String := dashes ++ "BEGIN " ++ name ++ dashes

def last (name : String) : String := dashes ++ "END " ++ name ++ dashes

def begun? (l : String) : Option String :=
  let start := dashes ++ "BEGIN "
  if l.startsWith start && l.endsWith dashes && start.length + dashes.length ≤ l.length then
    some (String.ofList ((l.toList.drop start.length).take
      (l.length - start.length - dashes.length)))
  else none

def finish (name : String) : List String → Except Error (List String)
  | [] => .error .unfinished
  | l :: ls =>
    if l.startsWith (dashes ++ "END ") then
      if l = last name then .ok ls else .error .unfinished
    else finish name ls

def names : Nat → List String → List String × Option Error
  | 0, _ | _, [] => ([], none)
  | n + 1, l :: ls =>
    match begun? l with
    | none => names n ls
    | some name =>
      match finish name ls with
      | .error e => ([], some e)
      | .ok rest =>
        let (ns, e) := names n rest
        (name :: ns, e)

def count (name text : String) : Except Error Nat :=
  let ls := lines text
  match names ls.length ls with
  | (_, some e) => .error e
  | (ns, none) => .ok (ns.count name)

/-- That there is a block of a name; what follows it does not matter. -/
def find (name text : String) : Except Error Unit :=
  let ls := lines text
  let (ns, e) := names ls.length ls
  if name ∈ ns then .ok () else .error (e.getD .noBlock)

end DumpImport.Web.Pem
