import DumpImport.Text.Utf8

namespace DumpImport

namespace Files

inductive Error where
  | notFound
  | denied
  | notDirectory
  | isDirectory
  | other (text : String)
deriving DecidableEq, Repr

def Error.message : Error → String
  | .notFound => "No such file or directory (os error 2)"
  | .denied => "Permission denied (os error 13)"
  | .notDirectory => "Not a directory (os error 20)"
  | .isDirectory => "Is a directory (os error 21)"
  | .other text => text

structure Entry where
  name : String
  isFile : Bool
deriving DecidableEq, Repr

structure Output (m : Type → Type) where
  append : String → m (Except Error Unit)
  flush : m (Except Error Unit)

def join (directory name : String) : String :=
  if directory = "" ∨ directory.endsWith "/" then directory ++ name else directory ++ "/" ++ name

end Files

structure Files (m : Type → Type) where
  /-- The outer failure is of opening a file, the inner one of reading it. -/
  contents : (path : String) → m (Except Files.Error (Except Files.Error Bytes))
  entries : (directory : String) → m (Except Files.Error (List Files.Entry))
  create : (path : String) → m (Except Files.Error (Files.Output m))

def Files.read {m : Type → Type} [Monad m] (fs : Files m) (path : String) :
    m (Except Files.Error Bytes) := do
  match ← fs.contents path with
  | .ok r => return r
  | .error e => return .error e

end DumpImport
