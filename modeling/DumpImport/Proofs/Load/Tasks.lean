import DumpImport.Load.Interleaving
import DumpImport.Proofs.Load.Lines

/-! The task of one file in a steady load: what it has written and counted so far, what it still
owes, and how many steps it is away from its end. -/

namespace DumpImport.Load

open Record

namespace Task

def owed (m : Mapper) (contents : String → Dump.Source) : Task → Summary
  | .waiting p => countedFile m (contents p)
  | .admitted p => countedFile m (contents p)
  | .reading r => r.summary + countedAll m r.source.collection r.source.lines
  | .mapping r line =>
    r.summary + (counted m r.source.collection line + countedAll m r.source.collection r.source.lines)
  | .writing r _ => r.summary + (.ofVerdict (some .keep) + countedAll m r.source.collection r.source.lines)
  | .ended (.ok n) => n
  | .ended (.error _) => 0
  | .joined => 0

def left (contents : String → Dump.Source) : Task → Nat
  | .waiting p => 3 * (contents p).lines.length + 4
  | .admitted p => 3 * (contents p).lines.length + 3
  | .reading r => 3 * r.source.lines.length + 2
  | .mapping r _ => 3 * r.source.lines.length + 4
  | .writing r _ => 3 * r.source.lines.length + 3
  | .ended _ => 1
  | .joined => 0

inductive Stage (m : Mapper) (contents : String → Dump.Source) (p : String) : Task → List Mapped → Prop where
  | waiting : Stage m contents p (.waiting p) []
  | admitted : Stage m contents p (.admitted p) []
  | reading {past lines n done} (lines_eq : (contents p).lines = past ++ lines)
      (kept : Kept m (contents p).collection past done) :
      Stage m contents p (.reading ⟨⟨(contents p).collection, lines, none⟩, n⟩) done
  | mapping {past line lines n done} (lines_eq : (contents p).lines = past ++ line :: lines)
      (kept : Kept m (contents p).collection past done) :
      Stage m contents p (.mapping ⟨⟨(contents p).collection, lines, none⟩, n⟩ line) done
  | writing {past line lines n done d r} (lines_eq : (contents p).lines = past ++ line :: lines)
      (kept : Kept m (contents p).collection past done)
      (mapped : m.map (contents p).collection d line = .ok r) (keep : r.verdict = .keep) :
      Stage m contents p (.writing ⟨⟨(contents p).collection, lines, none⟩, n⟩ r) done
  | ended {n done} (kept : Kept m (contents p).collection (contents p).lines done) :
      Stage m contents p (.ended (.ok n)) done
  | joined {done} (kept : Kept m (contents p).collection (contents p).lines done) :
      Stage m contents p .joined done

end Task

variable {σ : Type}

/-- What a step of a task may do: it writes `new`, and what it has counted it no longer owes. -/
structure Steps (m : Mapper) (contents : String → Dump.Source) (p : String) (t : Task) (done : List Mapped)
    (t' : Task) (new : List Mapped) : Prop where
  stage : Task.Stage m contents p t' (done ++ new)
  owed : t'.owed m contents = t.owed m contents
  left : t'.left contents < t.left contents

namespace Steady

variable {l : Loader (StateM σ)} {received : σ → List Mapped} {contents : String → Dump.Source}
  {paths : List String} (hl : Steady l received contents paths)

include hl

lemma read {p : String} {past lines : List String} {n : Summary} {done : List Mapped}
    (he : (contents p).lines = past ++ lines) (hk : Kept l.mapper (contents p).collection past done)
    (free : Nat) (s : σ) :
    ∃ t' free', (l.read false free ⟨⟨(contents p).collection, lines, none⟩, n⟩ s).1 = some (t', free') ∧
      received (l.read false free ⟨⟨(contents p).collection, lines, none⟩, n⟩ s).2 = received s ∧
      Steps l.mapper contents p (.reading ⟨⟨(contents p).collection, lines, none⟩, n⟩) done t' [] := by
  cases lines with
  | nil =>
    rw [List.append_nil] at he
    refine ⟨.ended (.ok n), free + 1, rfl, hl.discreet.finish _ s, ?_, (add_zero n).symm, Nat.lt_succ_self 1⟩
    rw [List.append_nil]
    exact .ended (he ▸ hk)
  | cons line lines =>
    refine ⟨.mapping ⟨⟨(contents p).collection, lines, none⟩, n⟩ line, free, rfl, rfl, ?_, ?_, ?_⟩
    · rw [List.append_nil]
      exact .mapping he hk
    · simp only [Task.owed, countedAll_cons]
    · simp only [Task.left, List.length_cons]
      omega

lemma mapNext {p : String} {past lines : List String} {line : String} {n : Summary} {done : List Mapped}
    (he : (contents p).lines = past ++ line :: lines)
    (hk : Kept l.mapper (contents p).collection past done) (s : σ) :
    received (l.mapNext ⟨⟨(contents p).collection, lines, none⟩, n⟩ line s).2 = received s ∧
      Steps l.mapper contents p (.mapping ⟨⟨(contents p).collection, lines, none⟩, n⟩ line) done
        (l.mapNext ⟨⟨(contents p).collection, lines, none⟩, n⟩ line s).1 [] := by
  obtain ⟨hr, hd⟩ := hl.discreet.prepare (contents p).collection n line s
  rw [Loader.mapNext]
  rcases hd with ⟨d, r, hm, hv, hd⟩ | ⟨hne, hd⟩ <;> rw [bind_of_fst hd]
  · refine ⟨hr, ?_, ?_, ?_⟩
    · rw [List.append_nil]
      exact .writing he hk hm hv
    · simp only [Task.owed, pure_apply, counted, outcome_of_ok hm, hv]
    · simp only [Task.left, pure_apply]
      omega
  · refine ⟨hr, ?_, ?_, ?_⟩
    · have hp : (contents p).lines = (past ++ [line]) ++ lines := by
        rw [he, List.append_assoc, List.singleton_append]
      exact .reading hp (hk.append (.skip hne .nil))
    · simp only [Task.owed, pure_apply, add_assoc]
    · simp only [Task.left, pure_apply]
      omega

lemma step {p : String} (hp : p ∈ paths) {t t' : Task} {done : List Mapped} {free' : Nat}
    (ht : Task.Stage l.mapper contents p t done) {state : State} (hc : state.cancelled = false)
    (ho : state.closed = false) {s : σ} (h : (l.step state t s).1 = some (t', free')) :
    ∃ new, received (l.step state t s).2 = received s ++ new ∧ Steps l.mapper contents p t done t' new := by
  cases ht with
  | waiting =>
    simp only [Loader.step, ho, Bool.false_eq_true, if_false] at h ⊢
    split_ifs at h ⊢
    · cases h
    · cases h
      exact ⟨[], (List.append_nil _).symm, .admitted, rfl, Nat.lt_succ_self _⟩
  | admitted =>
    obtain ⟨hload, hr⟩ := hl.load p hp s
    have hw : (⟨(contents p).collection, (contents p).lines, none⟩ : Dump.Source) = contents p := by
      rw [← hl.whole p hp]
    simp only [Loader.step, hc, Bool.false_eq_true, if_false] at h ⊢
    rw [bind_of_fst hload] at h ⊢
    cases h
    refine ⟨[], hr.trans (List.append_nil _).symm, ?_, rfl, Nat.lt_succ_self _⟩
    rw [← hw]
    exact .reading rfl .nil
  | @reading past lines n done lines_eq kept =>
    obtain ⟨u, free, hu, hr, hs⟩ := hl.read lines_eq kept state.free s
    rw [Loader.step, hc] at h ⊢
    cases hu.symm.trans h
    exact ⟨[], hr.trans (List.append_nil _).symm, hs⟩
  | @mapping past line lines n done lines_eq kept =>
    obtain ⟨hr, hs⟩ := hl.mapNext lines_eq kept s
    cases h
    exact ⟨[], hr.trans (List.append_nil _).symm, hs⟩
  | @writing past line lines n done d r lines_eq kept mapped keep =>
    obtain ⟨hs, hr⟩ := hl.store n r s
    rw [Loader.step, bind_of_fst hs] at h ⊢
    cases h
    refine ⟨[r], hr, ?_, ?_, Nat.lt_succ_self _⟩
    · have hp : (contents p).lines = (past ++ [line]) ++ lines := by
        rw [lines_eq, List.append_assoc, List.singleton_append]
      exact .reading hp (kept.append (.keep mapped keep .nil))
    · simp only [Task.owed, add_assoc]
  | ended kept => cases h
  | joined kept => cases h

end Steady

end DumpImport.Load
