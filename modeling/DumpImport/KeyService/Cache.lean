import Std.Data.HashMap.Basic

namespace DumpImport.KeyService

structure Cache where
  keys : Std.HashMap (String × String) String

namespace Cache

def empty : Cache := ⟨∅⟩

def get? (c : Cache) (wrapped keyId : String) : Option String := c.keys[(wrapped, keyId)]?

def insert (c : Cache) (wrapped keyId plaintext : String) : Cache :=
  ⟨c.keys.insert (wrapped, keyId) plaintext⟩

def size (c : Cache) : Nat := c.keys.size

end Cache

end DumpImport.KeyService
