namespace DumpImport.Command

structure Failure where
  headline : String
  causes : List String
deriving DecidableEq, Repr

namespace Failure

def item (numbered : Bool) (n : Nat) (text : String) : String :=
  let first := if numbered then s!"    {n}: " else "    "
  let further := if numbered then "\n       " else "\n    "
  first ++ further.intercalate (text.splitOn "\n")

def report (f : Failure) : String :=
  let items := f.causes.mapIdx (item (1 < f.causes.length))
  let behind := if items.isEmpty then "" else "\n\nCaused by:\n" ++ "\n".intercalate items
  "Error: " ++ f.headline ++ behind ++ "\n"

end Failure

end DumpImport.Command
