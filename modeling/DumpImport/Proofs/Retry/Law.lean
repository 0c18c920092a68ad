import DumpImport.Proofs.Outcome
import DumpImport.Retry.Run
import Mathlib.Data.ENat.Lattice

namespace DumpImport.Retry

namespace Outcome

variable {α ε : Type}

def IsFinal : Outcome α ε → Prop
  | .success _ => True
  | .retryable _ => False
  | .fatal _ => True

def result : Outcome α ε → Except ε α
  | .success a => .ok a
  | .retryable e => .error e
  | .fatal e => .error e

lemma exists_of_not_isFinal {o : Outcome α ε} (h : ¬o.IsFinal) : ∃ e, o = .retryable e := by
  cases o with
  | success a => exact absurd trivial h
  | retryable e => exact ⟨e, rfl⟩
  | fatal e => exact absurd trivial h

end Outcome

section Counts

variable {α ε : Type} {p : Policy} {o : ℕ → Outcome α ε} {k : ℕ}

noncomputable def firstFinal (o : ℕ → Outcome α ε) : ℕ∞ := ⨅ j, ⨅ _ : (o j).IsFinal, (j : ℕ∞)

structure EndsAt (p : Policy) (o : ℕ → Outcome α ε) (k : ℕ) : Prop where
  earlier : ∀ i < k, ¬(o i).IsFinal
  allowed : k < p.maxAttempts.toNat
  last : (o k).IsFinal ∨ k + 1 = p.maxAttempts.toNat

lemma exists_endsAt (p : Policy) (o : ℕ → Outcome α ε) : ∃ k, EndsAt p o k := by
  classical
  have hmax := p.one_le
  have hex : ∃ k, (o k).IsFinal ∨ k + 1 = p.maxAttempts.toNat := ⟨p.maxAttempts.toNat - 1, .inr (by omega)⟩
  have hle : Nat.find hex ≤ p.maxAttempts.toNat - 1 := Nat.find_min' hex (.inr (by omega))
  exact ⟨Nat.find hex, fun i hi hf => Nat.find_min hex hi (.inl hf), by omega, Nat.find_spec hex⟩

lemma EndsAt.count (h : EndsAt p o k) : ((k + 1 : ℕ) : ℕ∞) = min (firstFinal o + 1) p.maxAttempts.toNat := by
  have hle : (k : ℕ∞) ≤ firstFinal o := by
    refine le_iInf₂ fun j hj => ?_
    exact Nat.cast_le.mpr (Nat.le_of_not_lt fun hlt => h.earlier j hlt hj)
  have hk : ((k + 1 : ℕ) : ℕ∞) ≤ p.maxAttempts.toNat := Nat.cast_le.mpr h.allowed
  rcases h.last with hf | hm
  · have heq : firstFinal o = k := le_antisymm (iInf₂_le k hf) hle
    rw [heq, ← Nat.cast_succ, min_eq_left hk]
  · rw [← hm, min_eq_right]
    exact add_le_add_left hle 1

end Counts

section Runs

variable {α ε σ : Type} (p : Policy) (pause : Time.Span → StateM σ Unit)
  (attempt : StateM σ (Outcome α ε)) (s : σ)

def before : ℕ → σ
  | 0 => s
  | i + 1 => (pause (p.delay (.ofNat i)) (attempt (before i)).2).2

variable {p pause attempt s}

lemma attempts_last {n : UInt32} (hn : n < p.maxAttempts)
    (h : (attempt s).1.IsFinal ∨ p.maxAttempts ≤ n + 1) :
    p.attempts pause attempt n hn s = ((attempt s).1.result, (attempt s).2) := by
  rw [Policy.attempts, bind_apply]
  cases ho : (attempt s).1 with
  | success a => rfl
  | fatal e => rfl
  | retryable e =>
    have hlast : p.maxAttempts ≤ n + 1 := h.resolve_left (by rw [ho]; exact id)
    simp only [dif_pos hlast]
    rfl

lemma attempts_again {n : UInt32} (hn : n < p.maxAttempts) (h : ¬(attempt s).1.IsFinal)
    (hnext : n + 1 < p.maxAttempts) : p.attempts pause attempt n hn s =
      p.attempts pause attempt (n + 1) hnext (pause (p.delay n) (attempt s).2).2 := by
  obtain ⟨e, he⟩ := Outcome.exists_of_not_isFinal h
  rw [Policy.attempts, bind_of_fst he]
  simp only [dif_neg (UInt32.not_le.mpr hnext)]
  rfl

lemma ofNat_lt {k : ℕ} (h : k < p.maxAttempts.toNat) : UInt32.ofNat k < p.maxAttempts := by
  rw [UInt32.lt_iff_toNat_lt, UInt32.toNat_ofNat_of_lt' (h.trans p.maxAttempts.toNat_lt)]
  exact h

lemma run_eq_attempts {k : ℕ} (h : EndsAt p (fun i => (attempt (before p pause attempt s i)).1) k) {i : ℕ}
    (hi : i ≤ k) {n : UInt32} (hn : n < p.maxAttempts) (hni : n = .ofNat i) :
    p.run pause attempt s = p.attempts pause attempt n hn (before p pause attempt s i) := by
  induction i generalizing n with
  | zero =>
    subst hni
    rfl
  | succ i ih =>
    obtain rfl : n = .ofNat i + 1 := hni.trans (UInt32.ofNat_add i 1)
    rw [ih (Nat.le_of_succ_le hi) (ofNat_lt ((Nat.le_of_succ_le hi).trans_lt h.allowed)) rfl,
      attempts_again _ (h.earlier i hi) hn, before]

lemma run_of_endsAt {k : ℕ} (h : EndsAt p (fun i => (attempt (before p pause attempt s i)).1) k) :
    p.run pause attempt s = ((attempt (before p pause attempt s k)).1.result,
      (attempt (before p pause attempt s k)).2) := by
  rw [run_eq_attempts h le_rfl (ofNat_lt h.allowed) rfl]
  refine attempts_last _ (h.last.imp id fun hlast => ?_)
  rw [UInt32.le_iff_toNat_le, Policy.toNat_succ (ofNat_lt h.allowed),
    UInt32.toNat_ofNat_of_lt' (h.allowed.trans p.maxAttempts.toNat_lt), hlast]

end Runs

section Trials

structure Trial (η : Type) where
  made : ℕ
  done : List η

variable {α ε β η : Type}

def scripted (mark : η) (answers : ℕ → β) : StateM (Trial η) β :=
  fun t => (answers t.made, ⟨t.made + 1, t.done ++ [mark]⟩)

def noted (mark : Time.Span → η) (d : Time.Span) : StateM (Trial η) Unit :=
  fun t => ((), ⟨t.made, t.done ++ [mark d]⟩)

def rounds (p : Policy) (tried : η) (waited : Time.Span → η) (k : ℕ) : List η :=
  (List.range k).flatMap fun i => [tried, waited (p.delay (.ofNat i))]

variable (p : Policy) (tried : η) (waited : Time.Span → η) (o : ℕ → Outcome α ε) (t : Trial η)

lemma before_scripted (i : ℕ) :
    before p (noted waited) (scripted tried o) t i = ⟨t.made + i, t.done ++ rounds p tried waited i⟩ := by
  induction i with
  | zero => simp [before, rounds]
  | succ i ih => simp [before, ih, scripted, noted, rounds, List.range_succ, Nat.add_assoc]

section Ends

variable {p t} {k : ℕ} (hk : EndsAt p (fun i => o (t.made + i)) k)

include hk

lemma endsAt_scripted :
    EndsAt p (fun i => (scripted tried o (before p (noted waited) (scripted tried o) t i)).1) k := by
  simpa only [before_scripted, scripted] using hk

lemma run_reaches {i : ℕ} (hi : i ≤ k) : p.run (noted waited) (scripted tried o) t =
    p.attempts (noted waited) (scripted tried o) (.ofNat i) (ofNat_lt (hi.trans_lt hk.allowed))
      ⟨t.made + i, t.done ++ rounds p tried waited i⟩ := by
  rw [run_eq_attempts (endsAt_scripted tried waited o hk) hi (ofNat_lt (hi.trans_lt hk.allowed)) rfl,
    before_scripted]

lemma run_scripted : p.run (noted waited) (scripted tried o) t =
    ((o (t.made + k)).result, ⟨t.made + (k + 1), t.done ++ (rounds p tried waited k ++ [tried])⟩) := by
  rw [run_of_endsAt (endsAt_scripted tried waited o hk), before_scripted]
  simp [scripted, Nat.add_assoc]

end Ends

end Trials

inductive Effect where
  | tried
  | waited (d : Time.Span)

lemma Policy.maxAttempts_of (maxAttempts : UInt32) (initial : Time.Span) (multiplier : UInt32) :
    (Policy.of maxAttempts initial multiplier).maxAttempts.toNat = max maxAttempts.toNat 1 := by
  rw [Policy.of]
  split_ifs with h
  · exact (max_eq_left h).symm
  · exact (max_eq_right (by omega)).symm

end DumpImport.Retry
