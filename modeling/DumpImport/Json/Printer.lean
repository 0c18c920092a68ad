import DumpImport.Json.Value
import DumpImport.Binary64.Text
import DumpImport.Text.Hex

namespace DumpImport.Json

def escapeChar (c : Char) : List Char :=
  if c = '"' then ['\\', '"']
  else if c = '\\' then ['\\', '\\']
  else if c.toNat = 0x8 then ['\\', 'b']
  else if c.toNat = 0x9 then ['\\', 't']
  else if c.toNat = 0xA then ['\\', 'n']
  else if c.toNat = 0xC then ['\\', 'f']
  else if c.toNat = 0xD then ['\\', 'r']
  else if c.toNat < 0x20 then '\\' :: 'u' :: '0' :: '0' :: Text.Hex.lower c.toUInt8
  else [c]

def renderString (s : String) : List Char := '"' :: s.toList.flatMap escapeChar ++ ['"']

def Number.render : Number → List Char
  | .int i =>
    if i.val < 0 then '-' :: decimalDigits i.val.natAbs else decimalDigits i.val.natAbs
  | .double x => x.text

def Number.text (n : Number) : String := String.ofList n.render

mutual

def Value.render : Value → List Char
  | .null => ['n', 'u', 'l', 'l']
  | .bool true => ['t', 'r', 'u', 'e']
  | .bool false => ['f', 'a', 'l', 's', 'e']
  | .number n => n.render
  | .string s => renderString s
  | .array vs => '[' :: renderItems vs ++ [']']
  | .object ms => '{' :: renderMembers ms ++ ['}']

def renderItems : List Value → List Char
  | [] => []
  | [v] => v.render
  | v :: w :: vs => v.render ++ ',' :: renderItems (w :: vs)

def renderMembers : List (String × Value) → List Char
  | [] => []
  | [(k, v)] => renderString k ++ ':' :: v.render
  | (k, v) :: m :: ms => renderString k ++ ':' :: v.render ++ ',' :: renderMembers (m :: ms)

end

def Value.compact (v : Value) : String := String.ofList v.render

def Object.compact (o : Object) : String := Value.compact (.object o)

end DumpImport.Json
