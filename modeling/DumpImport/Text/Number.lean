namespace DumpImport.Text

def decimalValue (ds : List Char) : Nat :=
  ds.foldl (fun n d => n * 10 + (d.toNat - 0x30)) 0

def number? (top : Nat) (s : String) : Option Nat :=
  let digits := match s.toList with
    | '+' :: ds => ds
    | ds => ds
  let n := decimalValue digits
  if digits.isEmpty || !digits.all Char.isDigit || top < n then none else some n

end DumpImport.Text
