import DumpImport.Text.Blank
import DumpImport.Text.Number
import DumpImport.Web.Form

namespace DumpImport.Web

inductive Url.Error where
  | malformed
  /-- An address of some other kind, which no request can be sent to. -/
  | notWeb (text : String)
deriving DecidableEq, Repr

def Url.Error.message : Url.Error → String
  | .malformed => "builder error"
  | .notWeb text => "builder error for url (" ++ text ++ ")"

structure Url where
  scheme : String
  host : String
  port : Option Nat
  path : List Char
  query : Option (List Char)
  fragment : Option (List Char)

namespace Url

def isGraphic (c : Char) : Bool := 0x20 < c.toNat && c.toNat < 0x7F

def isFragmentChar (c : Char) : Bool := isGraphic c && c ∉ ['"', '<', '>', '\u0060']

def isPathChar (c : Char) : Bool := isFragmentChar c && c ∉ ['#', '?', '\x7b', '\x7d']

def isQueryChar (c : Char) : Bool := isGraphic c && c ∉ ['"', '#', '<', '>', '\'']

def escape (p : Char → Bool) (cs : List Char) : List Char :=
  cs.flatMap fun c => if p c then [c] else (Text.Utf8.encode [c]).flatMap escaped

def isSchemeChar (c : Char) : Bool := c.isAlphanum || c == '+' || c == '-' || c == '.'

def splitScheme (cs : List Char) : Option (List Char × List Char) :=
  let name := cs.takeWhile isSchemeChar
  match name, cs.drop name.length with
  | c :: _, ':' :: r => if c.isAlpha then some (name.map Char.toLower, r) else none
  | _, _ => none

def isSlash (c : Char) : Bool := c == '/' || c == '\\'

def endsAuthority (c : Char) : Bool := isSlash c || c == '?' || c == '#'

def afterLast (c : Char) (cs : List Char) : List Char := (cs.reverse.takeWhile (· != c)).reverse

def isHostChar (c : Char) : Bool :=
  isGraphic c && c ∉ ['#', '/', ':', '<', '>', '?', '@', '[', '\\', ']', '^', '|', '%'] ||
    0x7F < c.toNat

def standardPort (scheme : String) : Nat := if scheme = "https" then 443 else 80

/-- A port that goes without saying is not kept. -/
def port? (scheme : String) : List Char → Option (Option Nat)
  | [] => some none
  | ':' :: ds =>
    if !ds.all Char.isDigit then none
    else
      let n := Text.decimalValue ds
      if ds.isEmpty || n = standardPort scheme then some none
      else if n < 65536 then some (some n) else none
  | _ :: _ => none

def authority? (scheme : String) (cs : List Char) : Option (String × Option Nat) :=
  let cs := afterLast '@' cs
  let host := match cs with
    | '[' :: r => '[' :: r.takeWhile (· != ']') ++ [']']
    | _ => cs.takeWhile (· != ':')
  let isFine := !host.isEmpty && (host.head? == some '[' || host.all isHostChar)
  if isFine then
    (port? scheme (cs.drop host.length)).map fun p => (String.ofList (host.map Char.toLower), p)
  else none

def splitSegments : List Char → List (List Char)
  | [] => [[]]
  | c :: cs =>
    if isSlash c then [] :: splitSegments cs
    else match splitSegments cs with
      | s :: ss => (c :: s) :: ss
      | [] => [[c]]

def isHere (s : List Char) : Bool := ["." , "%2e"].contains (String.ofList (s.map Char.toLower))

def isUp (s : List Char) : Bool :=
  ["..", ".%2e", "%2e.", "%2e%2e"].contains (String.ofList (s.map Char.toLower))

/-- Segments with steps to the same place and upwards taken; such a step at the end leaves a
slash. -/
def resolve : List (List Char) → List (List Char) → List (List Char)
  | done, [] => done.reverse
  | done, [s] =>
    if isHere s then ([] :: done).reverse
    else if isUp s then ([] :: done.tail).reverse
    else (s :: done).reverse
  | done, s :: ss =>
    if isHere s then resolve done ss
    else if isUp s then resolve done.tail ss
    else resolve (s :: done) ss

def normalPath (cs : List Char) : List Char :=
  let segments := match cs with
    | c :: r => if isSlash c then splitSegments r else splitSegments cs
    | [] => [[]]
  (resolve [] (segments.map (escape isPathChar))).flatMap ('/' :: ·)

def isWeb (scheme : String) : Bool := scheme == "http" || scheme == "https"

def ofParts? (scheme : String) (cs : List Char) : Option Url := do
  let (front, fragment) := cs.span (· != '#')
  let front := front.dropWhile isSlash
  let (host, port) ← authority? scheme (front.takeWhile (!endsAuthority ·))
  let (path, query) := (front.dropWhile (!endsAuthority ·)).span (· != '?')
  some ⟨scheme, host, port, normalPath path,
    if query.isEmpty then none else some (escape isQueryChar query.tail),
    if fragment.isEmpty then none else some (escape isFragmentChar fragment.tail)⟩

def isControlOrSpace (c : Char) : Bool := c.toNat ≤ 0x20

def cleaned (s : String) : List Char :=
  (Text.dropTail isControlOrSpace (s.toList.dropWhile isControlOrSpace)).filter
    fun c => c ∉ ['\t', '\n', '\r']

/-- Other kinds of address are read if they name a host. -/
def parse (s : String) : Except Error Url :=
  match splitScheme (cleaned s) with
  | none => .error .malformed
  | some (scheme, r) =>
    let scheme := String.ofList scheme
    match ofParts? scheme r with
    | some u =>
      if isWeb scheme || "//".toList.isPrefixOf r then .ok u
      else .error (.notWeb (scheme ++ ":" ++ String.ofList r))
    | none =>
      .error (if isWeb scheme then .malformed else .notWeb (scheme ++ ":" ++ String.ofList r))

def addQuery (u : Url) (ps : List (String × String)) : Url :=
  let q := match u.query with
    | none | some [] => Form.query ps
    | some q => q ++ '&' :: Form.query ps
  { u with query := some q }

def target (u : Url) : String :=
  String.ofList (u.path ++ u.query.elim [] ('?' :: ·))

def authority (u : Url) : String := u.host ++ u.port.elim "" fun p => ":" ++ toString p

def text (u : Url) : String :=
  u.scheme ++ "://" ++ u.authority ++ u.target ++ String.ofList (u.fragment.elim [] ('#' :: ·))

end Url

end DumpImport.Web
