import DumpImport.Cipher.Engine

namespace DumpImport.Cipher

/-- Asked for at most `room` bytes, a supply gives some or fails. -/
abbrev Supply (σ ε : Type) := (room : Nat) → σ → Except ε Bytes × σ

def Supply.ofBytes {ε : Type} : Supply Bytes ε := fun room bs => (.ok (bs.take room), bs.drop room)

structure Stream (σ : Type) where
  key : Keystream
  inner : σ

namespace Stream

variable {σ ε : Type}

def ofText (E : BlockFunction) (key iv : String) (inner : σ) : Except Error (Stream σ) := do
  let k ← Keystream.ofText E key iv
  .ok ⟨k, inner⟩

/-- The key stream goes on where the last read left it, and a failed read leaves it there. -/
def read (supply : Supply σ ε) (s : Stream σ) (room : Nat) : Except ε Bytes × Stream σ :=
  match supply room s.inner with
  | (.ok bs, t) =>
    let r := s.key.apply bs
    (.ok r.1, ⟨r.2, t⟩)
  | (.error e, t) => (.error e, ⟨s.key, t⟩)

def reads (supply : Supply σ ε) : Stream σ → List Nat → List (Except ε Bytes) × Stream σ
  | s, [] => ([], s)
  | s, room :: rooms =>
    let (r, s) := s.read supply room
    let (rs, s) := reads supply s rooms
    (r :: rs, s)

end Stream

end DumpImport.Cipher
