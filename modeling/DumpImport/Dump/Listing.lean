import DumpImport.Dump.Collection
import DumpImport.Files.Basic

namespace DumpImport.Dump

def isDumpName (name : String) : Bool :=
  Collection.ending.isSuffixOf (name.toList.map Char.toLower)

def dumpNames (es : List Files.Entry) : List String :=
  ((es.filter fun e => e.isFile && isDumpName e.name).map (·.name)).mergeSort fun a b => !(b < a)

def list {m : Type → Type} [Monad m] (fs : Files m) (directory : String) :
    m (Except Files.Error (List String)) := do
  match ← fs.entries directory with
  | .ok es => return .ok ((dumpNames es).map (Files.join directory))
  | .error e => return .error e

end DumpImport.Dump
