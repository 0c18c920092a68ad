import DumpImport.Text.Quoted
import DumpImport.Text.Utf8

namespace DumpImport.Json

inductive Cause where
  | eofInList
  | eofInObject
  | eofInString
  | eofInValue
  | expectedColon
  | expectedListSeparator
  | expectedObjectSeparator
  | expectedIdent
  | expectedValue
  | invalidEscape
  | invalidNumber
  | numberOutOfRange
  | invalidCodePoint
  | controlCharacter
  | keyNotString
  | loneSurrogate
  | shortHexEscape
  | trailingComma
  | trailingCharacters
  | tooDeep
  | wrongType (found expected : String)
  | wrongLength (n : Nat) (expected : String)
  | missingField (name : String)
  | duplicateField (name : String)
deriving DecidableEq, Repr

def ticked (s : String) : String := "\x60" ++ s ++ "\x60"

def Cause.message : Cause → String
  | .eofInList => "EOF while parsing a list"
  | .eofInObject => "EOF while parsing an object"
  | .eofInString => "EOF while parsing a string"
  | .eofInValue => "EOF while parsing a value"
  | .expectedColon => "expected " ++ ticked ":"
  | .expectedListSeparator => "expected " ++ ticked "," ++ " or " ++ ticked "]"
  | .expectedObjectSeparator => "expected " ++ ticked "," ++ " or " ++ ticked "\x7d"
  | .expectedIdent => "expected ident"
  | .expectedValue => "expected value"
  | .invalidEscape => "invalid escape"
  | .invalidNumber => "invalid number"
  | .numberOutOfRange => "number out of range"
  | .invalidCodePoint => "invalid unicode code point"
  | .controlCharacter => "control character (\\u0000-\\u001F) found while parsing a string"
  | .keyNotString => "key must be a string"
  | .loneSurrogate => "lone leading surrogate in hex escape"
  | .shortHexEscape => "unexpected end of hex escape"
  | .trailingComma => "trailing comma"
  | .trailingCharacters => "trailing characters"
  | .tooDeep => "recursion limit exceeded"
  | .wrongType found expected => "invalid type: " ++ found ++ ", expected " ++ expected
  | .wrongLength n expected => s!"invalid length {n}, expected {expected}"
  | .missingField name => "missing field " ++ ticked name
  | .duplicateField name => "duplicate field " ++ ticked name

structure Failure where
  cause : Cause
  left : Nat
deriving DecidableEq, Repr

def Failure.here (c : Cause) (rest : Bytes) : Failure := ⟨c, rest.length⟩

/-- The next byte, if any, is the one at fault. -/
def Failure.next (c : Cause) (rest : Bytes) : Failure := ⟨c, rest.length - 1⟩

structure Error where
  cause : Cause
  line : Nat
  column : Nat
deriving DecidableEq, Repr

def Error.message (e : Error) : String :=
  s!"{e.cause.message} at line {e.line} column {e.column}"

/-- Columns count bytes since the last line end. -/
def Failure.locate (whole : Bytes) (f : Failure) : Error :=
  let read := whole.take (whole.length - f.left)
  ⟨f.cause, read.count 10 + 1, (read.reverse.takeWhile (· ≠ 10)).length⟩

end DumpImport.Json
