import DumpImport.Proofs.Text.Utf8

/-! A line feed is never part of another character, so bytes of any kind can be read line by line. -/

namespace DumpImport.Text.Utf8

lemma ofNat_ne_lineFeed {n : Nat} (h : n ≠ 0x0A) : Char.ofNat n ≠ '\n' := by
  intro hc
  by_cases hn : n.isValidChar
  · rw [Char.ofNat, dif_pos hn] at hc
    exact h (congrArg Char.toNat hc)
  · rw [Char.ofNat, dif_neg hn] at hc
    cases congrArg Char.toNat hc

namespace State

def Beyond : State → Prop
  | .between => True
  | .inside acc more lo _ => 0x80 ≤ lo ∧ (1 ≤ acc ∨ more ≠ 0 ∧ 0x80 < lo)

lemma lead_beyond (b : Nat) : (lead b).1.Beyond ∧ (b ≠ 0x0A → some '\n' ∉ (lead b).2) := by
  rw [lead]
  split_ifs with hascii
  · refine ⟨trivial, fun hb => ?_⟩
    simpa [eq_comm] using ofNat_ne_lineFeed hb
  all_goals simp [Beyond]
  all_goals omega

lemma step_other {acc more lo hi b : Nat} (h : ¬ (lo ≤ b ∧ b ≤ hi)) :
    step (.inside acc more lo hi) b = ((lead b).1, none :: (lead b).2) := by
  cases more <;> exact if_neg h

lemma step_beyond {s : State} (hs : s.Beyond) (b : Nat) :
    (s.step b).1.Beyond ∧ (b ≠ 0x0A → some '\n' ∉ (s.step b).2) := by
  cases s with
  | between => exact lead_beyond b
  | inside acc more lo hi =>
    obtain ⟨hlo, hacc⟩ := hs
    by_cases hb : lo ≤ b ∧ b ≤ hi
    · cases more with
      | zero =>
        have hn : acc * 64 + (b - 0x80) ≠ 0x0A := by omega
        rw [step_last hb.1 hb.2]
        exact ⟨trivial, fun _ => by simpa [eq_comm] using ofNat_ne_lineFeed hn⟩
      | succ more =>
        rw [step_more hb.1 hb.2]
        exact ⟨⟨Nat.le_refl _, .inl (by omega)⟩, fun _ => List.not_mem_nil⟩
    · obtain ⟨hl, hn⟩ := lead_beyond b
      rw [step_other hb]
      exact ⟨hl, fun hb => by simpa using hn hb⟩

lemma step_lineFeed {s : State} (hs : s.Beyond) : s.step 0x0A = (.between, s.flush ++ [some '\n']) := by
  cases s with
  | between => rfl
  | inside acc more lo hi =>
    rw [step_other fun h => absurd (Nat.le_trans hs.1 h.1) (by decide)]
    rfl

end State

namespace Machine

lemma foldl_feed (s : State) (out : List Piece) (bs : Bytes) : bs.foldl feed ⟨s, out⟩ =
    ⟨(bs.foldl feed ⟨s, []⟩).state, (bs.foldl feed ⟨s, []⟩).out ++ out⟩ := by
  induction bs generalizing s out with
  | nil => rfl
  | cons b bs ih =>
    rw [List.foldl_cons, List.foldl_cons, feed, feed, ih, ih _ ((s.step b.toNat).2.reverse ++ [])]
    simp only [List.append_nil, List.append_assoc]

lemma beyond_foldl {m : Machine} (h : m.state.Beyond) (bs : Bytes) : (bs.foldl feed m).state.Beyond := by
  induction bs generalizing m with
  | nil => exact h
  | cons b bs ih => exact ih (State.step_beyond h b.toNat).1

lemma notMem_foldl {m : Machine} (h : m.state.Beyond) (hm : some '\n' ∉ m.out)
    {bs : Bytes} (hbs : 0x0A ∉ bs) : some '\n' ∉ (bs.foldl feed m).out := by
  induction bs generalizing m with
  | nil => exact hm
  | cons b bs ih =>
    rw [List.mem_cons, not_or] at hbs
    obtain ⟨hstate, hout⟩ := State.step_beyond h b.toNat
    refine ih hstate ?_ hbs.2
    rw [feed]
    simp only [List.mem_append, List.mem_reverse, not_or]
    exact ⟨hout fun hb => hbs.1 (UInt8.toNat_inj.mp hb.symm), hm⟩

lemma feed_lineFeed {m : Machine} (h : m.state.Beyond) :
    m.feed 0x0A = ⟨.between, some '\n' :: (m.state.flush.reverse ++ m.out)⟩ := by
  rw [feed, show (0x0A : UInt8).toNat = 0x0A from rfl, State.step_lineFeed h]
  simp

end Machine

lemma pieces_lineFeed (as bs : Bytes) : pieces (as ++ 0x0A :: bs) = pieces as ++ some '\n' :: pieces bs := by
  have has : (as.foldl Machine.feed .start).state.Beyond := Machine.beyond_foldl (m := .start) trivial as
  rw [pieces, pieces, pieces, List.foldl_append, List.foldl_cons, Machine.feed_lineFeed has,
    Machine.foldl_feed]
  simp [Machine.finish, Machine.start]

lemma lossy_lineFeed (as bs : Bytes) : lossy (as ++ 0x0A :: bs) = lossy as ++ '\n' :: lossy bs := by
  rw [lossy, pieces_lineFeed]
  simp [lossy]

lemma lineFeed_notMem_lossy {bs : Bytes} (h : 0x0A ∉ bs) : '\n' ∉ lossy bs := by
  have hout := Machine.notMem_foldl (m := .start) trivial List.not_mem_nil h
  rw [lossy, pieces, Machine.finish]
  simp only [List.mem_map, not_exists, not_and]
  rintro (_ | c) hp hc
  · cases hc
  · simp only [Option.getD_some] at hc
    subst hc
    rw [List.mem_reverse, List.mem_append, List.mem_reverse] at hp
    rcases hp with hp | hp
    · cases hs : (bs.foldl Machine.feed .start).state <;> simp [hs, State.flush] at hp
    · exact hout hp

end DumpImport.Text.Utf8
