import DumpImport.Text.Hex

namespace DumpImport.Web

def escaped (b : UInt8) : List Char := '%' :: Text.Hex.upper b

namespace Form

def isPlain (b : UInt8) : Bool :=
  let c := Char.ofNat b.toNat
  b < 0x80 && (c.isAlphanum || c == '*' || c == '-' || c == '.' || c == '_')

def encodeByte (b : UInt8) : List Char :=
  if b = 0x20 then ['+'] else if isPlain b then [Char.ofNat b.toNat] else escaped b

def encode (cs : List Char) : List Char := (Text.Utf8.encode cs).flatMap encodeByte

def pair (p : String × String) : List Char := encode p.1.toList ++ '=' :: encode p.2.toList

def escape? (b x y : UInt8) : Option UInt8 :=
  if b = 0x25 then do
    let high ← Text.Hex.value? x
    let low ← Text.Hex.value? y
    some (UInt8.ofNat (high * 16 + low))
  else none

def spaced (b : UInt8) : UInt8 := if b = 0x2B then 0x20 else b

/-- An escape that is not complete stands for itself. -/
def unescape : Bytes → Bytes
  | [] => []
  | b :: x :: y :: r =>
    match escape? b x y with
    | some c => c :: unescape r
    | none => spaced b :: unescape (x :: y :: r)
  | b :: r => spaced b :: unescape r

def decode (cs : List Char) : String := (unescape (Text.Utf8.encode cs)).lossyText

def readPair (cs : List Char) : String × String :=
  let (name, value) := cs.span (· != '=')
  (decode name, decode value.tail)

def pairs (cs : List Char) : List (String × String) :=
  ((cs.splitOn '&').filter (!·.isEmpty)).map readPair

def query (ps : List (String × String)) : List Char := ['&'].intercalate (ps.map pair)

end Form

end DumpImport.Web
