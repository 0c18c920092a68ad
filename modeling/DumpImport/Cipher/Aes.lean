import DumpImport.Cipher.Block

namespace DumpImport.Cipher.Aes

def double (b : UInt8) : UInt8 := if b < 0x80 then b <<< 1 else (b <<< 1) ^^^ 0x1B

def mulFrom : Nat → UInt8 → UInt8 → UInt8
  | 0, _, _ => 0
  | n + 1, a, b => (if b % 2 = 1 then a else 0) ^^^ mulFrom n (double a) (b / 2)

def mul (a b : UInt8) : UInt8 := mulFrom 8 a b

def powFrom (a : UInt8) : Nat → UInt8
  | 0 => 1
  | n + 1 => mul a (powFrom a n)

def rotate (b : UInt8) (n : UInt8) : UInt8 := (b <<< n) ||| (b >>> (8 - n))

def substitute (b : UInt8) : UInt8 :=
  let i := powFrom b 254
  i ^^^ rotate i 1 ^^^ rotate i 2 ^^^ rotate i 3 ^^^ rotate i 4 ^^^ 0x63

def table : Array UInt8 := ((List.range 256).map fun n => substitute (UInt8.ofNat n)).toArray

def sub (b : UInt8) : UInt8 := table.getD b.toNat 0

def subColumn (x : Column) : Column := ⟨sub x.a, sub x.b, sub x.c, sub x.d⟩

def mixColumn (x : Column) : Column :=
  let all := x.a ^^^ x.b ^^^ x.c ^^^ x.d
  ⟨x.a ^^^ all ^^^ double (x.a ^^^ x.b), x.b ^^^ all ^^^ double (x.b ^^^ x.c),
    x.c ^^^ all ^^^ double (x.c ^^^ x.d), x.d ^^^ all ^^^ double (x.d ^^^ x.a)⟩

def subBytes (b : Block) : Block := ⟨subColumn b.w, subColumn b.x, subColumn b.y, subColumn b.z⟩

def shiftRows (b : Block) : Block :=
  ⟨⟨b.w.a, b.x.b, b.y.c, b.z.d⟩, ⟨b.x.a, b.y.b, b.z.c, b.w.d⟩,
    ⟨b.y.a, b.z.b, b.w.c, b.x.d⟩, ⟨b.z.a, b.w.b, b.x.c, b.y.d⟩⟩

def mixColumns (b : Block) : Block := ⟨mixColumn b.w, mixColumn b.x, mixColumn b.y, mixColumn b.z⟩

def rotColumn (x : Column) : Column := ⟨x.b, x.c, x.d, x.a⟩

/-- The next `n` columns of the schedule; those before stand last first, `i` of them in all. -/
def expand (keyColumns : Nat) : Nat → Nat → UInt8 → List Column → List Column
  | 0, _, _, ws => ws.reverse
  | n + 1, i, round, ws =>
    let last := ws.headD ⟨0, 0, 0, 0⟩
    let first := i % keyColumns == 0
    let t :=
      if first then (subColumn (rotColumn last)).xor ⟨round, 0, 0, 0⟩
      else if 6 < keyColumns ∧ i % keyColumns = 4 then subColumn last
      else last
    expand keyColumns n (i + 1) (if first then double round else round)
      (((ws[keyColumns - 1]?).getD ⟨0, 0, 0, 0⟩).xor t :: ws)

def blocks : List Column → List Block
  | w :: x :: y :: z :: r => ⟨w, x, y, z⟩ :: blocks r
  | _ => []

def schedule (key : Bytes) : List Block :=
  let ws := Column.ofBytes key
  let n := ws.length
  blocks (expand n (4 * (n + 7) - n) n 1 ws.reverse)

def rounds : List Block → Block → Block
  | [], b => b
  | [k], b => (shiftRows (subBytes b)).xor k
  | k :: ks, b => rounds ks ((mixColumns (shiftRows (subBytes b))).xor k)

def encryptWith (ks : List Block) (b : Block) : Block :=
  match ks with
  | [] => b
  | k :: ks => rounds ks (b.xor k)

def encrypt : BlockFunction := fun key =>
  let ks := schedule key
  fun b => encryptWith ks b

end DumpImport.Cipher.Aes
