import DumpImport.Dump.Source
import DumpImport.Proofs.Text.Lossy
import Mathlib.Data.List.DropRight

namespace DumpImport.Dump

def withoutReturns (cs : List Char) : String := String.ofList (Text.dropTail (· == '\r') cs)

def textLines (cs : List Char) : List String :=
  ((cs.splitOn '\n').map withoutReturns).filter (!Text.isAllBlank ·)

def lines (bs : Bytes) : List String :=
  ((bs.splitOn lineEnd).map fun s => withoutReturns (Text.Utf8.lossy s)).filter (!Text.isAllBlank ·)

def ended (bs : Bytes) : Bytes := bs.rdropWhile (· != lineEnd)

section Texts

lemma dropWhile_congr {α : Type} {p q : α → Bool} {as : List α} (h : ∀ a ∈ as, p a = q a) :
    as.dropWhile p = as.dropWhile q := by
  induction as with
  | nil => rfl
  | cons a as ih =>
    rw [List.forall_mem_cons] at h
    rw [List.dropWhile_cons, List.dropWhile_cons, h.1, ih h.2]

lemma dropTail_of_notMem {cs : List Char} (h : '\n' ∉ cs) :
    Text.dropTail (fun c => c == '\n' || c == '\r') cs = Text.dropTail (· == '\r') cs := by
  rw [Text.dropTail, Text.dropTail]
  congr 1
  apply dropWhile_congr
  intro c hc
  have hn : c ≠ '\n' := fun he => h (he ▸ List.mem_reverse.mp hc)
  simp [hn]

variable {seg : Bytes} (h : lineEnd ∉ seg)

include h

lemma lineText_open : lineText seg = withoutReturns (Text.Utf8.lossy seg) := by
  rw [lineText, Bytes.lossyText, String.toList_ofList, dropTail_of_notMem (Text.Utf8.lineFeed_notMem_lossy h),
    withoutReturns]

lemma lineText_ended : lineText (seg ++ [lineEnd]) = withoutReturns (Text.Utf8.lossy seg) := by
  have hl : Text.Utf8.lossy (seg ++ [lineEnd]) = Text.Utf8.lossy seg ++ ['\n'] :=
    Text.Utf8.lossy_lineFeed seg []
  rw [← lineText_open h, lineText, lineText, Bytes.lossyText, Bytes.lossyText, String.toList_ofList, hl,
    String.toList_ofList, Text.dropTail_append _ _ (by simp)]

end Texts

section Segments

variable {seg : Bytes}

def shown (t : String) : List String := [t].filter (!Text.isAllBlank ·)

lemma lines_cons (h : lineEnd ∉ seg) (rest : Bytes) :
    lines (seg ++ lineEnd :: rest) = shown (withoutReturns (Text.Utf8.lossy seg)) ++ lines rest := by
  rw [lines, lines, List.splitOn_append_cons_self_of_not_mem h, List.map_cons, ← List.singleton_append,
    List.filter_append, shown]

lemma lines_open (h : lineEnd ∉ seg) : lines seg = shown (withoutReturns (Text.Utf8.lossy seg)) := by
  rw [lines, List.splitOn_eq_singleton h, List.map_singleton, shown]

@[simp] lemma lines_nil : lines [] = [] := by decide

lemma exists_segment (bs : Bytes) :
    lineEnd ∉ bs ∨ ∃ seg rest, bs = seg ++ lineEnd :: rest ∧ lineEnd ∉ seg := by
  by_cases h : lineEnd ∈ bs
  · obtain ⟨seg, rest, hbs, hseg⟩ := List.eq_append_cons_of_mem h
    exact .inr ⟨seg, rest, hbs, hseg⟩
  · exact .inl h

lemma lines_eq_textLines (bs : Bytes) : lines bs = textLines (Text.Utf8.lossy bs) := by
  -- on the lines: one line feed is taken off the bytes and off the text
  induction hn : bs.length using Nat.strongRecOn generalizing bs with
  | ind n ih =>
    rcases exists_segment bs with h | ⟨seg, rest, rfl, h⟩
    · rw [lines_open h, textLines, List.splitOn_eq_singleton (Text.Utf8.lineFeed_notMem_lossy h),
        List.map_singleton, shown]
    · have hrest : rest.length < n := by
        rw [← hn, List.length_append, List.length_cons]
        omega
      rw [lines_cons h, ih rest.length hrest rest rfl, textLines, textLines, show lineEnd = 0x0A from rfl,
        Text.Utf8.lossy_lineFeed,
        List.splitOn_append_cons_self_of_not_mem (Text.Utf8.lineFeed_notMem_lossy h),
        List.map_cons, ← List.singleton_append, List.filter_append, shown]

lemma ended_cons (seg rest : Bytes) : ended (seg ++ lineEnd :: rest) = seg ++ lineEnd :: ended rest := by
  simp only [ended, List.rdropWhile, List.reverse_append, List.reverse_cons, List.append_assoc,
    List.dropWhile_append]
  split <;> simp_all

lemma ended_open (h : lineEnd ∉ seg) : ended seg = [] := by
  rw [ended, List.rdropWhile_eq_nil_iff]
  intro b hb
  exact bne_iff_ne.mpr fun he => h (he ▸ hb)

end Segments

namespace Reader

variable {ε : Type}

def upToFailure : List (Arrival ε) → Bytes × Option (ε × List (Arrival ε))
  | [] => ([], none)
  | .ok piece :: coming => (piece.1 ++ (upToFailure coming).1, (upToFailure coming).2)
  | .error e :: coming => ([], some (e, coming))

def ahead (r : Reader ε) : Bytes := r.held ++ (upToFailure r.coming).1

def broken (r : Reader ε) : Option (ε × List (Arrival ε)) := (upToFailure r.coming).2

def whole (r : Reader ε) : Bytes := if r.broken.isSome then ended r.ahead else r.ahead

lemma upToFailure_map_ok (pieces : List Piece) (coming : List (Arrival ε)) :
    upToFailure (pieces.map .ok ++ coming) =
      (pieces.flatMap Subtype.val ++ (upToFailure coming).1, (upToFailure coming).2) := by
  induction pieces with
  | nil => rfl
  | cons piece pieces ih => simp [upToFailure, ih]

lemma ahead_ofArrivals (pieces : List Piece) (coming : List (Arrival ε)) :
    (ofArrivals (pieces.map .ok ++ coming)).ahead = pieces.flatMap Subtype.val ++ (upToFailure coming).1 := by
  rw [ahead, ofArrivals, upToFailure_map_ok, List.nil_append]

lemma broken_ofArrivals (pieces : List Piece) (coming : List (Arrival ε)) :
    (ofArrivals (pieces.map .ok ++ coming)).broken = (upToFailure coming).2 := by
  rw [broken, ofArrivals, upToFailure_map_ok]

lemma cut_cons {seg : Bytes} (h : lineEnd ∉ seg) (rest : Bytes) :
    cut (seg ++ lineEnd :: rest) = (seg ++ [lineEnd], some rest) := by
  have hp : ∀ b ∈ seg, (b != lineEnd) = true := fun b hb => bne_iff_ne.mpr fun he => h (he ▸ hb)
  rw [cut, List.dropWhile_append_of_pos hp, List.takeWhile_append_of_pos hp]
  simp

lemma cut_open {bs : Bytes} (h : lineEnd ∉ bs) : cut bs = (bs, none) := by
  have hp : ∀ b ∈ bs, (b != lineEnd) = true := fun b hb => bne_iff_ne.mpr fun he => h (he ▸ hb)
  have hd : (bs ++ []).dropWhile (· != lineEnd) = [] := List.dropWhile_append_of_pos hp
  rw [List.append_nil] at hd
  rw [cut, hd]

inductive Fills (buffer ahead : Bytes) (broken : Option (ε × List (Arrival ε))) :
    Except ε Unit × Reader ε → Prop where
  | line {seg r} (noEnd : lineEnd ∉ seg) (ahead_eq : ahead = seg ++ lineEnd :: r.ahead)
      (broken_eq : r.broken = broken) (read : r.buffer = buffer ++ (seg ++ [lineEnd])) :
      Fills buffer ahead broken (.ok (), r)
  | all (noEnd : lineEnd ∉ ahead) (unbroken : broken = none) :
      Fills buffer ahead broken (.ok (), ⟨buffer ++ ahead, [], []⟩)
  | failed {e later} (noEnd : lineEnd ∉ ahead) (broken_eq : broken = some (e, later)) :
      Fills buffer ahead broken (.error e, ⟨buffer ++ ahead, [], later⟩)

lemma Fills.after {buffer held ahead : Bytes} {broken : Option (ε × List (Arrival ε))} {f}
    (h : lineEnd ∉ held) (hf : Fills (buffer ++ held) ahead broken f) :
    Fills buffer (held ++ ahead) broken f := by
  cases hf with
  | line noEnd ahead_eq broken_eq read =>
    refine .line (List.not_mem_append h noEnd) ?_ broken_eq ?_
    · rw [ahead_eq, List.append_assoc]
    · rw [read, List.append_assoc, List.append_assoc]
  | all noEnd unbroken =>
    rw [List.append_assoc]
    exact .all (List.not_mem_append h noEnd) unbroken
  | failed noEnd broken_eq =>
    rw [List.append_assoc]
    exact .failed (List.not_mem_append h noEnd) broken_eq

lemma fill_fills (buffer held : Bytes) (coming : List (Arrival ε)) :
    Fills buffer (held ++ (upToFailure coming).1) (upToFailure coming).2 (fill buffer held coming) := by
  induction coming generalizing buffer held with
  | nil =>
    rw [fill]
    rcases exists_segment held with h | ⟨seg, rest, rfl, h⟩
    · rw [cut_open h]
      have hall : Fills (buffer ++ held) [] (none : Option (ε × _)) _ := .all List.not_mem_nil rfl
      exact .after h (by simpa [upToFailure] using hall)
    · rw [cut_cons h]
      exact .line h (by simp [ahead]) rfl rfl
  | cons arrival coming ih =>
    rw [fill]
    rcases exists_segment held with h | ⟨seg, rest, rfl, h⟩
    · rw [cut_open h]
      cases arrival with
      | error e =>
        have hfailed : Fills (buffer ++ held) [] (some (e, coming)) _ := .failed List.not_mem_nil rfl
        exact .after h (by simpa [upToFailure] using hfailed)
      | ok piece => exact .after h (ih (buffer ++ held) piece.1)
    · rw [cut_cons h]
      exact .line h (by simp [ahead]) rfl rfl

inductive Finds (r : Reader ε) : Turn ε → Prop where
  | line {seg r'} (noEnd : lineEnd ∉ seg) (ahead_eq : r.ahead = seg ++ lineEnd :: r'.ahead)
      (broken_eq : r'.broken = r.broken) : Finds r (.ofLine (withoutReturns (Text.Utf8.lossy seg)) r')
  | last (noEnd : lineEnd ∉ r.ahead) (unbroken : r.broken = none) :
      Finds r (.ofLine (withoutReturns (Text.Utf8.lossy r.ahead)) ⟨r.ahead, [], []⟩)
  | none (ahead_eq : r.ahead = []) (unbroken : r.broken = none) : Finds r (.answer (.ok none) ⟨[], [], []⟩)
  | failed {e later} (noEnd : lineEnd ∉ r.ahead) (broken_eq : r.broken = some (e, later)) :
      Finds r (.answer (.error e) ⟨r.ahead, [], later⟩)

lemma turn_finds (r : Reader ε) : r.Finds r.turn := by
  have hf : Fills [] r.ahead r.broken _ := fill_fills [] r.held r.coming
  rw [turn]
  revert hf
  generalize fill [] r.held r.coming = f
  intro hf
  cases hf with
  | line noEnd ahead_eq broken_eq read =>
    simp only [read, List.nil_append]
    rw [if_neg (by simp), lineText_ended noEnd]
    exact .line noEnd ahead_eq broken_eq
  | all noEnd unbroken =>
    simp only [List.nil_append]
    split
    · rename_i hempty
      rw [List.isEmpty_iff.mp hempty]
      exact .none (List.isEmpty_iff.mp hempty) unbroken
    · rw [lineText_open noEnd]
      exact .last noEnd unbroken
  | failed noEnd broken_eq => exact .failed noEnd broken_eq

section Answers

variable {r r' : Reader ε} {a : Except ε (Option String)}

lemma nextLine_eq (r : Reader ε) : r.nextLine =
    match r.turn with
    | .answer a r' => (a, r')
    | .blank r' => r'.nextLine := by
  rw [nextLine]
  split <;> rename_i h <;> rw [h]

lemma nextLine_answer (h : r.turn = .answer a r') : r.nextLine = (a, r') := by
  rw [nextLine_eq, h]

lemma nextLine_blank (h : r.turn = .blank r') : r.nextLine = r'.nextLine := by
  rw [nextLine_eq, h]

lemma nextLine_buffer (buffer held : Bytes) (coming : List (Arrival ε)) :
    (Reader.mk buffer held coming).nextLine = (Reader.mk [] held coming).nextLine := by
  rw [nextLine_eq, nextLine_eq]
  rfl

lemma drainOnto_eq (acc : List String) (r : Reader ε) : drainOnto acc r =
    match r.nextLine with
    | (.ok (some t), r') => drainOnto (t :: acc) r'
    | (.ok none, r') => (acc.reverse, none, r')
    | (.error e, r') => (acc.reverse, some e, r') := by
  rw [drainOnto]
  split <;> rename_i h <;> rw [h]

lemma drainOnto_ofLine {t : String} (acc : List String) (h : r.turn = .ofLine t r') :
    drainOnto acc r = drainOnto ((shown t).reverse ++ acc) r' := by
  rw [Turn.ofLine] at h
  split at h
  · rename_i hb
    rw [drainOnto_eq, nextLine_blank h, ← drainOnto_eq, shown, List.filter_cons_of_neg (by simp [hb])]
    rfl
  · rename_i hb
    rw [drainOnto_eq, nextLine_answer h, shown, List.filter_cons_of_pos (by simp [hb])]
    rfl

lemma turn_ofLine_lt {t : String} (h : r.turn = .ofLine t r') : r'.unread.length < r.unread.length := by
  rw [Turn.ofLine] at h
  split at h
  · exact turn_lt (.inl h)
  · exact turn_lt (.inr ⟨t, h⟩)

/-- A call of `nextLine` that answers in its `n`th turn. -/
inductive Returns : ℕ → Reader ε → Except ε (Option String) × Reader ε → Prop where
  | answer {r₁ r₂ : Reader ε} {a} (turn : r₁.turn = .answer a r₂) : Returns 1 r₁ (a, r₂)
  | blank {n} {r₁ r₂ : Reader ε} {p} (turn : r₁.turn = .blank r₂) (later : Returns n r₂ p) :
      Returns (n + 1) r₁ p

lemma nextLine_returns (r : Reader ε) : ∃ n ≤ r.unread.length + 1, Returns n r r.nextLine := by
  induction hn : r.unread.length using Nat.strongRecOn generalizing r with
  | ind n ih =>
    cases h : r.turn with
    | answer a r' =>
      rw [nextLine_answer h]
      exact ⟨1, by omega, .answer h⟩
    | blank r' =>
      have hlt := turn_lt (.inl h)
      obtain ⟨k, hk, hr⟩ := ih r'.unread.length (hn ▸ hlt) r' rfl
      rw [nextLine_blank h]
      exact ⟨k + 1, by omega, .blank h hr⟩

end Answers

lemma whole_unbroken {r : Reader ε} (h : r.broken = none) : r.whole = r.ahead := by
  rw [whole, h, Option.isSome_none, if_neg Bool.false_ne_true]

lemma whole_broken {r : Reader ε} {b} (h : r.broken = some b) : r.whole = ended r.ahead := by
  rw [whole, h, Option.isSome_some, if_pos rfl]

lemma whole_line {r r' : Reader ε} {seg : Bytes} (ha : r.ahead = seg ++ lineEnd :: r'.ahead)
    (hb : r'.broken = r.broken) : r.whole = seg ++ lineEnd :: r'.whole := by
  rw [whole, whole, ha, hb]
  split
  · exact ended_cons seg r'.ahead
  · rfl

lemma whole_ofBytes (bs : Bytes) (failure : Option ε) :
    (ofBytes bs failure).whole = if failure.isSome then ended bs else bs := by
  cases failure <;> simp [whole, broken, ahead, ofBytes, upToFailure]

lemma drainOnto_spec (acc : List String) (r : Reader ε) : ∃ buffer, drainOnto acc r =
    (acc.reverse ++ lines r.whole, r.broken.map Prod.fst, ⟨buffer, [], (r.broken.map Prod.snd).getD []⟩) := by
  -- turn by turn, each of which leaves less to read
  induction hn : r.unread.length using Nat.strongRecOn generalizing acc r with
  | ind n ih =>
    have ih' {t : String} {r' : Reader ε} (h : r.turn = .ofLine t r') :=
      ih r'.unread.length (hn ▸ turn_ofLine_lt h) ((shown t).reverse ++ acc) r' rfl
    have hfinds := turn_finds r
    generalize ht : r.turn = turn at hfinds
    cases hfinds with
    | line noEnd ahead_eq broken_eq =>
      obtain ⟨buffer, hd⟩ := ih' ht
      refine ⟨buffer, ?_⟩
      rw [drainOnto_ofLine acc ht, hd, whole_line ahead_eq broken_eq, lines_cons noEnd, broken_eq]
      simp
    | last noEnd unbroken =>
      obtain ⟨buffer, hd⟩ := ih' ht
      refine ⟨buffer, ?_⟩
      rw [drainOnto_ofLine acc ht, hd, whole_unbroken unbroken, lines_open noEnd, unbroken,
        show (Reader.mk r.ahead [] []).broken = (none : Option (ε × _)) from rfl,
        show (Reader.mk r.ahead [] ([] : List (Arrival ε))).whole = [] from rfl]
      simp
    | none ahead_eq unbroken =>
      refine ⟨[], ?_⟩
      rw [drainOnto_eq, nextLine_answer ht, whole_unbroken unbroken, ahead_eq, unbroken]
      simp
    | failed noEnd broken_eq =>
      refine ⟨r.ahead, ?_⟩
      rw [drainOnto_eq, nextLine_answer ht, whole_broken broken_eq, ended_open noEnd, broken_eq]
      simp

end Reader

open Reader in
/-- The lines that are read are those of the bytes, in whatever pieces they come; up to a failure,
those that are ended by then, and what it cuts off is no part of any later line. -/
theorem lines_of_pieces {ε : Type} (pieces : List Piece) :
    let bs := pieces.flatMap Subtype.val
    lines bs = textLines (Text.Utf8.lossy bs) ∧
    (∃ r : Reader ε, (ofArrivals (pieces.map .ok)).drain = (lines bs, none, r) ∧ r.nextLine.1 = .ok none) ∧
    (∀ (e : ε) (later : List (Arrival ε)), ∃ r : Reader ε,
      (ofArrivals (pieces.map .ok ++ .error e :: later)).drain = (lines (ended bs), some e, r) ∧
        r.nextLine = (ofArrivals later).nextLine) ∧
    ∀ r : Reader ε, ∃ n ≤ r.unread.length + 1, Returns n r r.nextLine := by
  intro bs
  refine ⟨lines_eq_textLines bs, ?_, fun e later => ?_, nextLine_returns⟩
  · have ha : (ofArrivals (pieces.map .ok ++ ([] : List (Arrival ε)))).ahead = bs := by
      rw [ahead_ofArrivals, upToFailure, List.append_nil]
    have hb := broken_ofArrivals pieces ([] : List (Arrival ε))
    obtain ⟨buffer, hd⟩ := drainOnto_spec [] (ofArrivals (pieces.map .ok ++ ([] : List (Arrival ε))))
    rw [whole_unbroken hb, ha, hb, List.append_nil] at hd
    have hturn : (Reader.mk [] [] ([] : List (Arrival ε))).turn = .answer (.ok none) ⟨[], [], []⟩ := rfl
    have hnext : (Reader.mk buffer [] ([] : List (Arrival ε))).nextLine.1 = .ok none := by
      rw [nextLine_buffer, nextLine_answer hturn]
    exact ⟨_, hd, hnext⟩
  · have ha : (ofArrivals (pieces.map .ok ++ .error e :: later)).ahead = bs := by
      rw [ahead_ofArrivals, upToFailure, List.append_nil]
    have hb := broken_ofArrivals pieces (.error e :: later)
    obtain ⟨buffer, hd⟩ := drainOnto_spec [] (ofArrivals (pieces.map .ok ++ .error e :: later))
    rw [whole_broken hb, ha, hb] at hd
    exact ⟨_, hd, nextLine_buffer buffer [] later⟩

-- a sequence that breaks off at the end of its line, a blank line, and a last one that is not ended
example : lines [0xC3, 0x0A, 0x20, 0x0A, 0x61, 0x0D, 0x0D] = ["\uFFFD", "a"] := by decide

theorem lines_of_file (path : String) (k : Cipher.Keystream) (bs : Bytes) :
    (Source.ofBytes path k bs).lines =
      if (Gzip.expand (k.apply bs).1).error.isSome then lines (ended (Gzip.expand (k.apply bs).1).bytes)
      else lines (Gzip.expand (k.apply bs).1).bytes := by
  rw [Source.ofBytes]
  generalize Gzip.expand (k.apply bs).1 = o
  obtain ⟨buffer, hd⟩ := Reader.drainOnto_spec [] (Reader.ofBytes o.bytes o.error)
  rw [Reader.whole_ofBytes, List.reverse_nil, List.nil_append] at hd
  simp only [Reader.drain, hd]
  split <;> rfl

end DumpImport.Dump
