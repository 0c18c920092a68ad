import DumpImport.Cipher.Engine
import DumpImport.Json.Failure

namespace DumpImport.Record

inductive Rejection where
  | malformed (e : Json.Error)
  | notObject
  | wrapperNotObject (field : String)
  | missingId
  | invalidId
deriving DecidableEq, Repr

def Rejection.message : Rejection → String
  | .malformed e => "malformed JSON: " ++ e.message
  | .notObject => "record is not a JSON object"
  | .wrapperNotObject field => field ++ " is not an object"
  | .missingId => "record has a missing or invalid _id"
  | .invalidId => "record has an invalid _id"

inductive Error where
  | invalid (r : Rejection)
  | unparseableDate (text : String)
  | cipher (e : Cipher.Error)
  | json (e : Json.Error)
deriving DecidableEq, Repr

def Error.message : Error → String
  | .invalid r => "invalid record: " ++ r.message
  | .unparseableDate text =>
    "unparseable date found: '" ++ text ++ "', did not match any supported date formats"
  | .cipher e => "failed to encrypt record: " ++ e.message
  | .json e => "failed to serialize record: " ++ e.message

end DumpImport.Record
