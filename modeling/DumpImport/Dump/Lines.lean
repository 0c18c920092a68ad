import DumpImport.Text.Blank
import DumpImport.Text.Utf8

namespace DumpImport.Dump

/-- A read that brings nothing is the end, so a piece is not empty. -/
abbrev Piece := { bs : Bytes // bs ≠ [] }

abbrev Arrival (ε : Type) := Except ε Piece

def Arrival.bytes {ε : Type} : Arrival ε → Bytes
  | .ok p => p.1
  | .error _ => []

def lineEnd : UInt8 := 0x0A

structure Reader (ε : Type) where
  buffer : Bytes
  held : Bytes
  coming : List (Arrival ε)

inductive Turn (ε : Type) where
  | answer (a : Except ε (Option String)) (r : Reader ε)
  | blank (r : Reader ε)

def Turn.ofLine {ε : Type} (t : String) (r : Reader ε) : Turn ε :=
  if Text.isAllBlank t then .blank r else .answer (.ok (some t)) r

def lineText (bs : Bytes) : String :=
  String.ofList (Text.dropTail (fun c => c == '\n' || c == '\r') bs.lossyText.toList)

namespace Reader

variable {ε : Type}

def ofArrivals (coming : List (Arrival ε)) : Reader ε := ⟨[], [], coming⟩

def ofBytes (bs : Bytes) (failure : Option ε) : Reader ε := ⟨[], bs, failure.toList.map .error⟩

def unread (r : Reader ε) : Bytes := r.held ++ r.coming.flatMap Arrival.bytes

def cut (bs : Bytes) : Bytes × Option Bytes :=
  match bs.dropWhile (· != lineEnd) with
  | stop :: rest => (bs.takeWhile (· != lineEnd) ++ [stop], some rest)
  | [] => (bs, none)

theorem cut_append (bs : Bytes) : (cut bs).1 ++ (cut bs).2.getD [] = bs := by
  rw [cut]
  split
  · rename_i stop rest h
    rw [Option.getD_some, List.append_assoc, List.singleton_append, ← h]
    exact List.takeWhile_append_dropWhile
  · exact List.append_nil bs

/-- Adds to the buffer what comes up to the next end of a line, or all there is. What was added before
a failure stays. -/
def fill (buffer held : Bytes) (coming : List (Arrival ε)) : Except ε Unit × Reader ε :=
  match cut held with
  | (part, some rest) => (.ok (), ⟨buffer ++ part, rest, coming⟩)
  | (part, none) =>
    match coming with
    | [] => (.ok (), ⟨buffer ++ part, [], []⟩)
    | .error e :: coming => (.error e, ⟨buffer ++ part, [], coming⟩)
    | .ok piece :: coming => fill (buffer ++ part) piece.1 coming

theorem fill_unread (buffer held : Bytes) (coming : List (Arrival ε)) :
    (fill buffer held coming).2.buffer ++ (fill buffer held coming).2.unread =
      buffer ++ (held ++ coming.flatMap Arrival.bytes) := by
  induction coming generalizing buffer held with
  | nil =>
    have hcut := cut_append held
    rw [fill]
    rcases h : cut held with ⟨part, _ | rest⟩ <;> rw [h] at hcut
    · simp [unread, ← hcut]
    · simp [unread, ← hcut]
  | cons arrival coming ih =>
    have hcut := cut_append held
    rw [fill]
    rcases h : cut held with ⟨part, _ | rest⟩ <;> rw [h] at hcut
    · cases arrival with
      | error e => simp [unread, Arrival.bytes, ← hcut]
      | ok piece => simp [ih, Arrival.bytes, ← hcut]
    · simp [unread, ← hcut]

def turn (r : Reader ε) : Turn ε :=
  match fill [] r.held r.coming with
  | (.error e, r) => .answer (.error e) r
  | (.ok (), r) =>
    if r.buffer.isEmpty then .answer (.ok none) r else .ofLine (lineText r.buffer) r

theorem length_unread_lt {r r' : Reader ε} (hb : r'.buffer.isEmpty = false) {a : Except ε Unit}
    (h : fill [] r.held r.coming = (a, r')) : r'.unread.length < r.unread.length := by
  have hu : r'.buffer ++ r'.unread = r.unread := by
    have hu := fill_unread [] r.held r.coming
    rwa [h] at hu
  have hp := List.length_pos_iff.mpr (List.isEmpty_eq_false_iff.mp hb)
  rw [← hu, List.length_append]
  omega

theorem turn_lt {r r' : Reader ε} (h : r.turn = .blank r' ∨ ∃ t, r.turn = .answer (.ok (some t)) r') :
    r'.unread.length < r.unread.length := by
  rw [turn] at h
  split at h
  · rcases h with h | ⟨t, h⟩ <;> cases h
  · rename_i r₁ hf
    split at h
    · rcases h with h | ⟨t, h⟩ <;> cases h
    · rename_i hb
      have hr : r₁ = r' := by
        rw [Turn.ofLine] at h
        split at h
        · rcases h with h | ⟨t, h⟩
          · exact Turn.blank.inj h
          · cases h
        · rcases h with h | ⟨t, h⟩
          · cases h
          · exact (Turn.answer.inj h).2
      exact hr ▸ length_unread_lt (Bool.eq_false_iff.mpr hb) hf

def nextLine (r : Reader ε) : Except ε (Option String) × Reader ε :=
  match _h : r.turn with
  | .answer a r => (a, r)
  | .blank r => r.nextLine
termination_by r.unread.length
decreasing_by exact turn_lt (.inl _h)

theorem nextLine_lt {r r' : Reader ε} {t : String} (h : r.nextLine = (.ok (some t), r')) :
    r'.unread.length < r.unread.length := by
  fun_induction nextLine r with
  | case1 r a r₁ ht =>
    cases h
    exact turn_lt (.inr ⟨t, ht⟩)
  | case2 r r₁ ht ih => exact Nat.lt_trans (ih h) (turn_lt (.inl ht))

def drainOnto (acc : List String) (r : Reader ε) : List String × Option ε × Reader ε :=
  match _h : r.nextLine with
  | (.ok (some t), r) => drainOnto (t :: acc) r
  | (.ok none, r) => (acc.reverse, none, r)
  | (.error e, r) => (acc.reverse, some e, r)
termination_by r.unread.length
decreasing_by exact nextLine_lt _h

def drain (r : Reader ε) : List String × Option ε × Reader ε := drainOnto [] r

end Reader

end DumpImport.Dump
