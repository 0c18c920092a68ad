import DumpImport.Json.Failure
import DumpImport.Json.Value
import DumpImport.Text.Hex

/-!
Reading JSON from bytes. A reader takes what is left of the text and gives a value and what is
left after it.
-/
namespace DumpImport.Json

abbrev Reader (α : Type) := Bytes → Except Failure (α × Bytes)

def isBlank (b : UInt8) : Bool := b = 0x20 || b = 0x9 || b = 0xA || b = 0xD

def skipBlank (bs : Bytes) : Bytes := bs.dropWhile isBlank

def isDigit (b : UInt8) : Bool := 0x30 ≤ b && b ≤ 0x39

def digitOf (b : UInt8) : Nat := b.toNat - 0x30

def literal : List UInt8 → α → Reader α
  | [], v, bs => .ok (v, bs)
  | _ :: _, _, [] => .error (.here .eofInValue [])
  | w :: ws, v, b :: r => if b = w then literal ws v r else .error (.here .expectedIdent r)

/-! Numbers -/

structure Scaled where
  significand : Nat
  exp : Int

/-- Once a digit no longer fits, it and all after it only count places. -/
def Scaled.whole : List UInt8 → Nat → Scaled
  | [], n => ⟨n, 0⟩
  | b :: bs, n =>
    if n * 10 + digitOf b < 0x10000000000000000 then whole bs (n * 10 + digitOf b) else ⟨n, bs.length + 1⟩

/-- Once a digit no longer fits, it and all after it are dropped. -/
def Scaled.fraction : List UInt8 → Scaled → Scaled
  | [], x => x
  | b :: bs, ⟨n, e⟩ =>
    if n * 10 + digitOf b < 0x10000000000000000 then fraction bs ⟨n * 10 + digitOf b, e - 1⟩ else ⟨n, e⟩

/-- The value of the exponent's digits, or the digits after the one that takes it to `2 ^ 31`. -/
def exponentValue : List UInt8 → Nat → Except Nat Nat
  | [], n => .ok n
  | b :: bs, n =>
    if n * 10 + digitOf b < 0x80000000 then exponentValue bs (n * 10 + digitOf b)
    else .error bs.length

def signedDouble (negative : Bool) (m : Magnitude) : Number := .double ⟨negative, m⟩

def Scaled.number (negative : Bool) (x : Scaled) : Reader Number := fun rest =>
  match (Magnitude.ofNat x.significand).bind (·.scaleTen x.exp) with
  | some m => .ok (signedDouble negative m, rest)
  | none => .error (.here .numberOutOfRange rest)

def exponent (negative : Bool) (x : Scaled) : Reader Number := fun bs =>
  let (down, bs) := match bs with
    | b :: r => if b = 0x2B then (false, r) else if b = 0x2D then (true, r) else (false, bs)
    | [] => (false, [])
  match bs with
  | [] => .error (.here .eofInValue [])
  | b :: r =>
    if isDigit b then
      let (ds, rest) := bs.span isDigit
      match exponentValue ds 0 with
      | .ok e => Scaled.number negative ⟨x.significand, if down then x.exp - e else x.exp + e⟩ rest
      | .error unread =>
        if x.significand ≠ 0 ∧ !down then .error ⟨.numberOutOfRange, unread + rest.length⟩
        else .ok (signedDouble negative .zero, rest)
    else .error (.here .invalidNumber r)

def isExponentLetter (b : UInt8) : Bool := b = 0x65 || b = 0x45

def decimals (negative : Bool) (x : Scaled) : Reader Number := fun bs =>
  let (ds, rest) := bs.span isDigit
  match ds, rest with
  | [], [] => .error (.next .eofInValue [])
  | [], _ :: _ => .error (.next .invalidNumber rest)
  | _ :: _, b :: r =>
    if isExponentLetter b then exponent negative (x.fraction ds) r
    else (x.fraction ds).number negative rest
  | _ :: _, [] => (x.fraction ds).number negative []

def wholeNumber (negative : Bool) (x : Scaled) : Reader Number := fun rest =>
  let i : Int := if negative then -x.significand else x.significand
  match Integer.ofInt? i with
  | some i => if negative ∧ x.significand = 0 ∨ x.exp ≠ 0 then x.number negative rest
    else .ok (.int i, rest)
  | none => x.number negative rest

def number (negative : Bool) : Reader Number := fun bs =>
  match bs with
  | [] => .error (.here .eofInValue [])
  | b :: r =>
    if isDigit b then
      let (ds, rest) := if b = 0x30 then ([b], r) else bs.span isDigit
      let x := Scaled.whole ds 0
      match rest with
      | [] => wholeNumber negative x []
      | c :: t =>
        if b = 0x30 ∧ isDigit c then .error (.next .invalidNumber rest)
        else if c = 0x2E then decimals negative x t
        else if isExponentLetter c then exponent negative x t
        else wholeNumber negative x rest
    else .error (.here .invalidNumber r)

/-! Strings -/

/-- Inside a string: between characters, after a backslash, inside the `more + 1` hex digits left
of an escape, and before the two marks that join a second surrogate to the first. -/
inductive Within where
  | plain
  | escape
  | hex (high : Option Nat) (more : Nat) (acc : Option Nat)
  | joint (high : Nat)
  | jointLetter (high : Nat)
deriving DecidableEq

def simpleEscape? (b : UInt8) : Option UInt8 :=
  if b = 0x22 ∨ b = 0x5C ∨ b = 0x2F then some b
  else if b = 0x62 then some 0x8
  else if b = 0x66 then some 0xC
  else if b = 0x6E then some 0xA
  else if b = 0x72 then some 0xD
  else if b = 0x74 then some 0x9
  else none

def isLowSurrogate (n : Nat) : Bool := 0xDC00 ≤ n && n ≤ 0xDFFF

def isHighSurrogate (n : Nat) : Bool := 0xD800 ≤ n && n ≤ 0xDBFF

def pushChar (acc : Bytes) (n : Nat) : Bytes :=
  (String.utf8EncodeChar (Char.ofNat n)).reverse ++ acc

def unit (high : Option Nat) (n : Nat) (acc : Bytes) : Except Cause (Within × Bytes) :=
  match high with
  | some h =>
    if isLowSurrogate n then .ok (.plain, pushChar acc ((h - 0xD800) * 1024 + (n - 0xDC00) + 0x10000))
    else .error .loneSurrogate
  | none =>
    if isLowSurrogate n then .error .loneSurrogate
    else if isHighSurrogate n then .ok (.joint n, acc)
    else .ok (.plain, pushChar acc n)

def Within.step : Within → UInt8 → Bytes → Except Cause (Within × Bytes)
  | .plain, b, acc =>
    if b = 0x5C then .ok (.escape, acc)
    else if b < 0x20 then .error .controlCharacter
    else .ok (.plain, b :: acc)
  | .escape, b, acc =>
    if b = 0x75 then .ok (.hex none 3 (some 0), acc)
    else match simpleEscape? b with
      | some c => .ok (.plain, c :: acc)
      | none => .error .invalidEscape
  | .hex high more n, b, acc =>
    let n := n.bind fun n => (Text.Hex.value? b).map (n * 16 + ·)
    match more, n with
    | m + 1, n => .ok (.hex high m n, acc)
    | 0, none => .error .invalidEscape
    | 0, some n => unit high n acc
  | .joint high, b, acc => if b = 0x5C then .ok (.jointLetter high, acc) else .error .shortHexEscape
  | .jointLetter high, b, acc =>
    if b = 0x75 then .ok (.hex (some high) 3 (some 0), acc) else .error .shortHexEscape

def stringFrom : Within → Bytes → Reader String
  | _, _, [] => .error (.here .eofInString [])
  | w, acc, b :: r =>
    if w = .plain ∧ b = 0x22 then
      match Text.Utf8.decode? acc.reverse with
      | some cs => .ok (String.ofList cs, r)
      | none => .error (.here .invalidCodePoint r)
    else match w.step b acc with
      | .ok (w, acc) => stringFrom w acc r
      | .error c => .error (.here c r)

def string : Reader String := stringFrom .plain []

/-! Bracketed sequences -/

structure Shape where
  close : UInt8
  atEnd : Cause
  separator : Cause
  quoted : Bool

def Shape.list : Shape := ⟨0x5D, .eofInList, .expectedListSeparator, false⟩

def Shape.object : Shape := ⟨0x7D, .eofInObject, .expectedObjectSeparator, true⟩

def Shape.item (s : Shape) (bs : Bytes) : Except Failure Bytes :=
  match bs with
  | [] => .error (.next .eofInValue [])
  | b :: r =>
    if s.quoted ∧ b ≠ 0x22 then .error (.next .keyNotString (b :: r)) else .ok (b :: r)

def Shape.next (s : Shape) (first : Bool) (bs : Bytes) : Except Failure (Bool × Bytes) :=
  match skipBlank bs with
  | [] => .error (.next s.atEnd [])
  | b :: r =>
    if b = s.close then .ok (false, b :: r)
    else if first then (s.item (b :: r)).map (true, ·)
    else if b = 0x2C then
      match skipBlank r with
      | [] => .error (.next .eofInValue [])
      | c :: t =>
        if c = s.close then .error (.next .trailingComma (c :: t))
        else (s.item (c :: t)).map (true, ·)
    else .error (.next s.separator (b :: r))

/-- The items up to the closing bracket, which is read too. The bound is never met: each item
takes a byte at least. -/
def Shape.items (s : Shape) (item : Reader α) : Nat → Bool → List α → Reader (List α)
  | 0, _, _, bs => .error (.next s.atEnd bs)
  | n + 1, first, acc, bs =>
    match s.next first bs with
    | .error f => .error f
    | .ok (false, r) => .ok (acc.reverse, r.tail)
    | .ok (true, r) =>
      match item r with
      | .error f => .error f
      | .ok (a, r) => items s item n false (a :: acc) r

def Shape.all (s : Shape) (item : Reader α) : Reader (List α) := fun bs =>
  s.items item (bs.length + 1) true [] bs

def colon (bs : Bytes) : Except Failure Bytes :=
  match skipBlank bs with
  | [] => .error (.next .eofInObject [])
  | b :: r => if b = 0x3A then .ok r else .error (.next .expectedColon (b :: r))

def key : Reader String := fun bs => do
  let (k, r) ← string bs.tail
  let r ← colon r
  .ok (k, r)

def member (item : Reader α) : Reader (String × α) := fun bs => do
  let (k, r) ← key bs
  let (a, r) ← item r
  .ok ((k, a), r)

/-! Values -/

def maxDepth : Nat := 127

def value : Nat → Reader Value
  | depth, bs =>
    match skipBlank bs with
    | [] => .error (.next .eofInValue [])
    | b :: r =>
      if b = 0x6E then literal [0x75, 0x6C, 0x6C] .null r
      else if b = 0x74 then literal [0x72, 0x75, 0x65] (.bool true) r
      else if b = 0x66 then literal [0x61, 0x6C, 0x73, 0x65] (.bool false) r
      else if b = 0x2D then (number true r).map fun (n, r) => (.number n, r)
      else if isDigit b then (number false (b :: r)).map fun (n, r) => (.number n, r)
      else if b = 0x22 then (string r).map fun (s, r) => (.string s, r)
      else if b = 0x5B then
        match depth with
        | 0 => .error (.next .tooDeep (b :: r))
        | d + 1 => (Shape.list.all (value d) r).map fun (vs, r) => (.array vs, r)
      else if b = 0x7B then
        match depth with
        | 0 => .error (.next .tooDeep (b :: r))
        | d + 1 => (Shape.object.all (member (value d)) r).map fun (ms, r) =>
          (.object (Object.ofMembers ms), r)
      else .error (.next .expectedValue (b :: r))

def atEnd (bs : Bytes) : Except Failure Unit :=
  match skipBlank bs with
  | [] => .ok ()
  | b :: r => .error (.next .trailingCharacters (b :: r))

def whole (read : Reader α) (bs : Bytes) : Except Error α :=
  match read bs with
  | .error f => .error (f.locate bs)
  | .ok (a, r) =>
    match atEnd r with
    | .error f => .error (f.locate bs)
    | .ok _ => .ok a

def parseBytes (bs : Bytes) : Except Error Value := whole (value maxDepth) bs

def parse (s : String) : Except Error Value := parseBytes (Bytes.ofText s)

end DumpImport.Json
