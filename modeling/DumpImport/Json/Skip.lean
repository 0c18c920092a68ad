import DumpImport.Json.Reader

/-!
Passing over a value that nobody wants. Its form is checked, its depth, the size of its numbers
and the characters of its strings are not.
-/
namespace DumpImport.Json

def skipExponent : Reader Unit := fun bs =>
  let bs := match bs with
    | b :: r => if b = 0x2B ∨ b = 0x2D then r else bs
    | [] => []
  match bs with
  | [] => .error (.here .invalidNumber [])
  | b :: r => if isDigit b then .ok ((), r.dropWhile isDigit) else .error (.here .invalidNumber r)

def skipFraction : Reader Unit := fun bs =>
  match bs.dropWhile isDigit with
  | [] => if bs.isEmpty then .error (.next .invalidNumber []) else .ok ((), [])
  | b :: r =>
    if (bs.takeWhile isDigit).isEmpty then .error (.next .invalidNumber (b :: r))
    else if isExponentLetter b then skipExponent r
    else .ok ((), b :: r)

def skipNumber : Reader Unit := fun bs =>
  match bs with
  | [] => .error (.here .invalidNumber [])
  | b :: r =>
    if isDigit b then
      match if b = 0x30 then r else r.dropWhile isDigit with
      | [] => .ok ((), [])
      | c :: t =>
        if b = 0x30 ∧ isDigit c then .error (.next .invalidNumber (c :: t))
        else if c = 0x2E then skipFraction t
        else if isExponentLetter c then skipExponent t
        else .ok ((), c :: t)
    else .error (.here .invalidNumber r)

def Within.skip : Within → UInt8 → Except Cause Within
  | .plain, b => .ok (if b = 0x5C then .escape else .plain)
  | .escape, b =>
    if b = 0x75 then .ok (.hex none 3 (some 0))
    else if (simpleEscape? b).isSome then .ok .plain
    else .error .invalidEscape
  | .hex high more n, b =>
    let n := n.bind fun n => (Text.Hex.value? b).map (n * 16 + ·)
    match more, n with
    | m + 1, n => .ok (.hex high m n)
    | 0, none => .error .invalidEscape
    | 0, some _ => .ok .plain
  | w, _ => .ok w

def skipString : Within → Reader Unit
  | _, [] => .error (.here .eofInString [])
  | w, b :: r =>
    if w = .plain ∧ b = 0x22 then .ok ((), r)
    else if w = .plain ∧ b < 0x20 then .error (.here .controlCharacter (b :: r))
    else match w.skip b with
      | .ok w => skipString w r
      | .error c => .error (.here c r)

inductive Phase where
  | value
  | opened
  | after

def skipKey : Reader Unit := fun bs =>
  match skipBlank bs with
  | [] => .error (.next .eofInObject [])
  | b :: r =>
    if b = 0x22 then
      match skipString .plain r with
      | .error f => .error f
      | .ok (_, r) => (colon r).map ((), ·)
    else .error (.next .keyNotString (b :: r))

def skipItem (s : Shape) : Reader Unit := fun bs => if s.quoted then skipKey bs else .ok ((), bs)

def skipScalar (b : UInt8) : Reader Unit := fun r =>
  if b = 0x6E then literal [0x75, 0x6C, 0x6C] () r
  else if b = 0x74 then literal [0x72, 0x75, 0x65] () r
  else if b = 0x66 then literal [0x61, 0x6C, 0x73, 0x65] () r
  else if b = 0x2D then skipNumber r
  else if isDigit b then skipNumber (b :: r)
  else if b = 0x22 then skipString .plain r
  else .error (.next .expectedValue (b :: r))

/-- The brackets still open stand innermost first. Two phases in a row read a byte at least, so
the bound is never met. -/
def skipFrom : Nat → Phase → List Shape → Reader Unit
  | 0, _, _, bs => .error (.next .eofInValue bs)
  | n + 1, .value, open_, bs =>
    match skipBlank bs with
    | [] => .error (.next .eofInValue [])
    | b :: r =>
      if b = 0x5B then skipFrom n .opened (Shape.list :: open_) r
      else if b = 0x7B then skipFrom n .opened (Shape.object :: open_) r
      else match skipScalar b r with
        | .error f => .error f
        | .ok (_, r) => skipFrom n .after open_ r
  | _ + 1, _, [], bs => .ok ((), bs)
  | n + 1, phase, s :: open_, bs =>
    match skipBlank bs with
    | [] => .error (.next s.atEnd [])
    | b :: r =>
      if b = s.close then skipFrom n .after open_ r
      else
        let start : Except Failure Bytes := match phase with
          | .after => if b = 0x2C then .ok r else .error (.next s.separator (b :: r))
          | _ => .ok (b :: r)
        match start.bind (skipItem s) with
        | .error f => .error f
        | .ok (_, r) => skipFrom n .value (s :: open_) r

def skip : Reader Unit := fun bs => skipFrom (2 * bs.length + 2) .value [] bs

end DumpImport.Json
