import DumpImport.Gzip.Checksum
import DumpImport.Gzip.Inflate

namespace DumpImport.Gzip

inductive Error where
  | invalidHeader
  | longField
  | eof
  | checksum
  | deflate (f : Fault)
deriving DecidableEq, Repr

def Error.message : Error → String
  | .invalidHeader => "invalid gzip header"
  | .longField => "gzip header field too long"
  | .eof => "unexpected end of file"
  | .checksum => "corrupt gzip stream does not have a matching checksum"
  | .deflate .corrupt => "corrupt deflate stream"
  | .deflate .incomplete => "incomplete deflate stream"

def maxField : Nat := 65535

def take? (n : Nat) (bs : Bytes) : Except Error (Bytes × Bytes) :=
  if n ≤ bs.length then .ok (bs.take n, bs.drop n) else .error .eof

def littleEndian (bs : Bytes) : Nat := bs.foldr (fun b n => b.toNat + 256 * n) 0

def zeroEnded (bs : Bytes) : Except Error (Bytes × Bytes) :=
  let field := bs.takeWhile (· ≠ 0)
  match bs.drop field.length with
  | [] => if maxField < field.length then .error .longField else .error .eof
  | z :: r => if maxField < field.length then .error .longField else .ok (field ++ [z], r)

def hasFlag (flags : UInt8) (n : UInt8) : Bool := (flags >>> n) % 2 == 1

def extraPart (flags : UInt8) (bs : Bytes) : Except Error (Bytes × Bytes) :=
  if hasFlag flags 2 then do
    let (n, r) ← take? 2 bs
    let (extra, r) ← take? (littleEndian n) r
    .ok (n ++ extra, r)
  else .ok ([], bs)

def textPart (flags n : UInt8) (bs : Bytes) : Except Error (Bytes × Bytes) :=
  if hasFlag flags n then zeroEnded bs else .ok ([], bs)

def header (bs : Bytes) : Except Error Bytes := do
  let (fixed, r) ← take? 10 bs
  match fixed with
  | a :: b :: method :: flags :: _ =>
    if a = 0x1F ∧ b = 0x8B ∧ method = 8 ∧ flags < 0x20 then
      let (extra, r) ← extraPart flags r
      let (name, r) ← textPart flags 3 r
      let (comment, r) ← textPart flags 4 r
      if hasFlag flags 1 then
        let (sum, r) ← take? 2 r
        if littleEndian sum = (crc32 (fixed ++ extra ++ name ++ comment)).toNat % 0x10000 then .ok r
        else .error .checksum
      else .ok r
    else .error .invalidHeader
  | _ => .error .invalidHeader

def trailer (out bs : Bytes) : Except Error Bytes := do
  let (t, r) ← take? 8 bs
  if littleEndian (t.take 4) = (crc32 out).toNat ∧
      littleEndian (t.drop 4) = out.length % 0x100000000 then .ok r
  else .error .checksum

structure Output where
  bytes : Bytes
  error : Option Error

/-- One member: its output and what follows it. Output goes on by the window, so of one that turns
out corrupt nothing does. -/
def member (bs : Bytes) : Bytes × Except Error Bytes :=
  match header bs with
  | .error e => ([], .error e)
  | .ok r =>
    let e := inflate r
    match e.state with
    | .error .corrupt =>
      (e.out.toList.take (e.out.size / windowSize * windowSize), .error (.deflate .corrupt))
    | .error .incomplete => (e.out.toList, .error (.deflate .incomplete))
    | .ok s => (e.out.toList, trailer e.out.toList s.rest)

def members : Nat → Bytes → List Bytes → Output
  | 0, _, acc => ⟨acc.reverse.flatten, none⟩
  | n + 1, bs, acc =>
    match member bs with
    | (out, .error e) => ⟨(out :: acc).reverse.flatten, some e⟩
    | (out, .ok []) => ⟨(out :: acc).reverse.flatten, none⟩
    | (out, .ok r) => members n r (out :: acc)

def expand (bs : Bytes) : Output := members (bs.length + 1) bs []

end DumpImport.Gzip
