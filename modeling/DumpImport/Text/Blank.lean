/-!
White space is the 25 characters of the Unicode property `White_Space`.
-/
namespace DumpImport.Text

def isBlank (c : Char) : Bool :=
  let n := c.toNat
  (0x9 ≤ n && n ≤ 0xD) || n == 0x20 || n == 0x85 || n == 0xA0 || n == 0x1680 ||
    (0x2000 ≤ n && n ≤ 0x200A) || n == 0x2028 || n == 0x2029 || n == 0x202F || n == 0x205F ||
    n == 0x3000

def dropBlank (cs : List Char) : List Char := cs.dropWhile isBlank

def dropTail (p : Char → Bool) (cs : List Char) : List Char := (cs.reverse.dropWhile p).reverse

def trimmed (cs : List Char) : List Char := dropTail isBlank (dropBlank cs)

def trim (s : String) : String := String.ofList (trimmed s.toList)

def isAllBlank (s : String) : Bool := s.toList.all isBlank

theorem dropBlank_blank_append {ws : List Char} (h : ∀ c ∈ ws, isBlank c = true) (cs : List Char) :
    dropBlank (ws ++ cs) = dropBlank cs := by
  simp only [dropBlank]
  exact List.dropWhile_append_of_pos h

theorem dropTail_append (p : Char → Bool) (cs : List Char) {ws : List Char}
    (h : ∀ c ∈ ws, p c = true) : dropTail p (cs ++ ws) = dropTail p cs := by
  simp only [dropTail, List.reverse_append]
  rw [List.dropWhile_append_of_pos (by simpa using h)]

end DumpImport.Text
