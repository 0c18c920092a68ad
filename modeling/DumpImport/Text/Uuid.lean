import DumpImport.Text.Hex

namespace DumpImport.Text

def uuid (bs : Bytes) : String :=
  let marked := bs.modify 6 (fun b => b &&& 0x0F ||| 0x40) |>.modify 8 (fun b => b &&& 0x3F ||| 0x80)
  let part (start size : Nat) : List Char :=
    ((marked.drop start).take size).flatMap Hex.lower
  String.ofList (['-'].intercalate [part 0 4, part 4 2, part 6 2, part 8 2, part 10 6])

end DumpImport.Text
