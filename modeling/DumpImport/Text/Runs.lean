/-!
A class of characters as the lengths of its runs: so many code points outside it, so many inside,
and so on from U+0000.
-/
namespace DumpImport.Text

def inRuns : List Nat → Bool → Nat → Bool
  | [], _, _ => false
  | n :: ns, inside, k => if k < n then inside else inRuns ns (!inside) (k - n)

end DumpImport.Text
