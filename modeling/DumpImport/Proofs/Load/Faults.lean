import DumpImport.Load.Interleaving
import DumpImport.Proofs.Outcome
import Mathlib.Order.Nat

namespace DumpImport.Load

open Record

variable {σ : Type}

inductive OwnFault (l : Loader (StateM σ)) (met : σ → Prop) (p : String) : Error → Prop where
  | unopened {s e} (here : met s) (failed : (l.load p s).1 = .error e) : OwnFault l met p (.dump e)
  | broken {s f e} (here : met s) (opened : (l.load p s).1 = .ok f) (failed : f.failure = some e) :
      OwnFault l met p (.dump e)
  | refused {s f line d r t e} (here : met s) (opened : (l.load p s).1 = .ok f) (line_mem : line ∈ f.lines)
      (mapped : l.mapper.map f.collection d line = .ok r) (keep : r.verdict = .keep) (there : met t)
      (failed : (l.sink.write r t).1 = .error e) : OwnFault l met p (.sink e)

lemma OwnFault.ne_abandoned {l : Loader (StateM σ)} {met : σ → Prop} {p : String} {e : Error}
    (h : OwnFault l met p e) : e ≠ .abandoned := by
  cases h <;> simp

namespace Task

inductive Origin (l : Loader (StateM σ)) (met : σ → Prop) (closed : Bool) (p : String) : Task → Prop where
  | waiting : Origin l met closed p (.waiting p)
  | admitted : Origin l met closed p (.admitted p)
  | reading {s f lines n} (here : met s) (opened : (l.load p s).1 = .ok f) (rest : lines ⊆ f.lines) :
      Origin l met closed p (.reading ⟨⟨f.collection, lines, f.failure⟩, n⟩)
  | mapping {s f lines n line} (here : met s) (opened : (l.load p s).1 = .ok f)
      (rest : line :: lines ⊆ f.lines) :
      Origin l met closed p (.mapping ⟨⟨f.collection, lines, f.failure⟩, n⟩ line)
  | writing {s f lines n line d r} (here : met s) (opened : (l.load p s).1 = .ok f)
      (rest : line :: lines ⊆ f.lines)
      (mapped : l.mapper.map f.collection d line = .ok r) (keep : r.verdict = .keep) :
      Origin l met closed p (.writing ⟨⟨f.collection, lines, f.failure⟩, n⟩ r)
  | done {n} : Origin l met closed p (.ended (.ok n))
  | failed {e} (own : OwnFault l met p e) : Origin l met closed p (.ended (.error e))
  | abandoned (shut : closed = true) : Origin l met closed p (.ended (.error .abandoned))
  | joined : Origin l met closed p .joined

lemma Origin.close {l : Loader (StateM σ)} {met : σ → Prop} {closed : Bool} {p : String} {t : Task}
    (h : t.Origin l met closed p) : t.Origin l met true p := by
  cases h with
  | waiting => exact .waiting
  | admitted => exact .admitted
  | reading here opened rest => exact .reading here opened rest
  | mapping here opened rest => exact .mapping here opened rest
  | writing here opened rest mapped keep => exact .writing here opened rest mapped keep
  | done => exact .done
  | failed own => exact .failed own
  | abandoned => exact .abandoned rfl
  | joined => exact .joined

def turns : Task → Nat
  | .waiting _ => 0
  | .admitted _ => 1
  | .reading _ => 1
  | .mapping _ _ => 1
  | .writing _ _ => 1
  | .ended _ => 0
  | .joined => 0

def unopened : Task → Nat
  | .waiting _ => 2
  | .admitted _ => 1
  | _ => 0

/-- How far a task is from being joined, once its file is open. -/
def ahead : Task → Nat
  | .waiting _ => 0
  | .admitted _ => 0
  | .reading r => 3 * r.source.lines.length + 2
  | .mapping r _ => 3 * r.source.lines.length + 4
  | .writing r _ => 3 * r.source.lines.length + 3
  | .ended _ => 1
  | .joined => 0

def inHand : Task → Nat
  | .mapping _ _ => 1
  | .writing _ _ => 1
  | _ => 0

def offer : Task → List Mapped
  | .writing _ r => [r]
  | _ => []

inductive Blocked (free : Nat) : Task → Prop where
  | waiting {p} (full : free = 0) : Blocked free (.waiting p)
  | ended {r} : Blocked free (.ended r)
  | joined : Blocked free .joined

end Task

structure Advances
    (l : Loader (StateM σ)) (met : σ → Prop) (state : State) (t t' : Task) (free' : Nat) : Prop where
  origin : ∀ p, t.Origin l met state.closed p → t'.Origin l met state.closed p
  turns : free' + t'.turns = state.free + t.turns
  nearer : t'.unopened < t.unopened ∨ t'.unopened = t.unopened ∧ t'.ahead < t.ahead
  spent : state.cancelled = true → t.offer.length + t'.inHand ≤ t.inHand

section Steps

variable {l : Loader (StateM σ)} {met : σ → Prop} {state : State} {s : σ} {t' : Task} {free' : Nat}

lemma write_of_prepare {c : Dump.Collection} {n : Summary} {line : String} {r : Mapped}
    (h : (l.prepare c n line s).1 = .write r) : ∃ d, l.mapper.map c d line = .ok r ∧ r.verdict = .keep := by
  rw [Loader.prepare, bind_apply, mapLine, bind_apply] at h
  generalize l.draw s = ds at h
  obtain ⟨d, s'⟩ := ds
  refine ⟨d, ?_⟩
  cases hm : l.mapper.map c d line with
  | error e =>
    rw [hm] at h
    cases h
  | ok a =>
    rw [hm] at h
    simp only [bind_apply, pure_apply, Loader.route] at h
    cases hv : a.verdict with
    | keep =>
      simp only [hv] at h
      split at h
      · cases h
      · cases h
        exact ⟨rfl, hv⟩
    | tooEarly =>
      simp only [hv] at h
      cases h
    | tooLate =>
      simp only [hv] at h
      cases h

lemma waiting_advances {q : String} (h : (l.step state (.waiting q) s).1 = some (t', free')) :
    Advances l met state (.waiting q) t' free' := by
  simp only [Loader.step] at h
  split_ifs at h with hc hf
  · cases h
    exact ⟨fun p _ => .abandoned hc, rfl, .inl Nat.zero_lt_two, fun _ => le_rfl⟩
  · cases h
  · cases h
    refine ⟨?_, ?_, .inl Nat.one_lt_two, fun _ => le_rfl⟩
    · rintro p ⟨⟩
      exact .admitted
    · simp only [Task.turns]
      omega

lemma admitted_advances {q : String} (hs : met s) (h : (l.step state (.admitted q) s).1 = some (t', free')) :
    Advances l met state (.admitted q) t' free' := by
  simp only [Loader.step] at h
  split_ifs at h with hc
  · cases h
    exact ⟨fun _ _ => .done, rfl, .inl Nat.zero_lt_one, fun _ => le_rfl⟩
  · cases hl : (l.load q s).1 with
    | error e =>
      rw [bind_of_fst hl] at h
      cases h
      refine ⟨?_, rfl, .inl Nat.zero_lt_one, fun _ => le_rfl⟩
      rintro p ⟨⟩
      exact .failed (.unopened hs hl)
    | ok f =>
      rw [bind_of_fst hl] at h
      cases h
      refine ⟨?_, rfl, .inl Nat.zero_lt_one, fun _ => le_rfl⟩
      rintro p ⟨⟩
      exact .reading hs hl (List.Subset.refl _)

lemma ended_advances {r : Reading} {e : Except Error Summary}
    (ho : ∀ p, (Task.reading r).Origin l met state.closed p → (Task.ended e).Origin l met state.closed p) :
    Advances l met state (.reading r) (.ended e) (state.free + 1) :=
  ⟨ho, rfl, .inr ⟨rfl, by simp only [Task.ahead]; omega⟩, fun _ => le_rfl⟩

lemma reading_advances {r : Reading} (h : (l.step state (.reading r) s).1 = some (t', free')) :
    Advances l met state (.reading r) t' free' := by
  obtain ⟨⟨c, lines, failure⟩, n⟩ := r
  rw [Loader.step, Loader.read] at h
  cases lines with
  | nil =>
    cases failure with
    | none =>
      cases h
      exact ended_advances fun _ _ => .done
    | some e =>
      simp only at h
      split_ifs at h with hc
      · cases h
        exact ended_advances fun _ _ => .done
      · cases h
        refine ended_advances ?_
        intro p ho
        generalize hx : some e = x at ho
        cases ho with
        | reading here opened rest => exact .failed (.broken here opened hx.symm)
  | cons line lines =>
    simp only at h
    split_ifs at h with hc
    · cases h
      exact ended_advances fun _ _ => .done
    · cases h
      refine ⟨?_, rfl, .inr ⟨rfl, by simp only [Task.ahead, List.length_cons]; omega⟩, fun ht => absurd ht hc⟩
      intro p ho
      cases ho with
      | reading here opened rest => exact .mapping here opened rest

lemma mapping_advances {r : Reading} {line : String}
    (h : (l.step state (.mapping r line) s).1 = some (t', free')) :
    Advances l met state (.mapping r line) t' free' := by
  rw [Loader.step, Loader.mapNext, bind_apply, bind_apply] at h
  cases hp : (l.prepare r.source.collection r.summary line s).1 with
  | nothing n =>
    simp only [hp, pure_apply, Option.some.injEq, Prod.mk.injEq] at h
    obtain ⟨rfl, rfl⟩ := h
    refine ⟨?_, rfl, .inr ⟨rfl, by simp only [Task.ahead]; omega⟩, fun _ => Nat.zero_le 1⟩
    intro p ho
    cases ho with
    | mapping here opened rest => exact .reading here opened (List.subset_of_cons_subset rest)
  | write a =>
    simp only [hp, pure_apply, Option.some.injEq, Prod.mk.injEq] at h
    obtain ⟨rfl, rfl⟩ := h
    obtain ⟨d, hm, hk⟩ := write_of_prepare hp
    refine ⟨?_, rfl, .inr ⟨rfl, by simp only [Task.ahead]; omega⟩, fun _ => le_rfl⟩
    intro p ho
    cases ho with
    | mapping here opened rest => exact .writing here opened rest hm hk

lemma writing_advances {r : Reading} {a : Mapped} (hs : met s)
    (h : (l.step state (.writing r a) s).1 = some (t', free')) :
    Advances l met state (.writing r a) t' free' := by
  rw [Loader.step, Loader.store, bind_apply, bind_apply] at h
  cases hw : (l.sink.write a s).1 with
  | error e =>
    rw [hw] at h
    cases h
    refine ⟨?_, rfl, .inr ⟨rfl, by simp only [Task.ahead]; omega⟩, fun _ => le_rfl⟩
    intro p ho
    cases ho with
    | writing here opened rest mapped keep =>
      exact .failed (.refused here opened (rest List.mem_cons_self) mapped keep hs hw)
  | ok _ =>
    rw [hw] at h
    cases h
    refine ⟨?_, rfl, .inr ⟨rfl, by simp only [Task.ahead]; omega⟩, fun _ => le_rfl⟩
    intro p ho
    cases ho with
    | writing here opened rest mapped keep => exact .reading here opened (List.subset_of_cons_subset rest)

lemma advances {t : Task} (hs : met s) (h : (l.step state t s).1 = some (t', free')) :
    Advances l met state t t' free' := by
  cases t with
  | waiting q => exact waiting_advances h
  | admitted q => exact admitted_advances hs h
  | reading r => exact reading_advances h
  | mapping r line => exact mapping_advances h
  | writing r a => exact writing_advances hs h
  | ended e => cases h
  | joined => cases h

lemma blocked_of_step {t : Task} (h : (l.step state t s).1 = none) :
    t.Blocked state.free ∧ (state.closed = true → ∀ p, t ≠ .waiting p) := by
  cases t with
  | waiting q =>
    simp only [Loader.step] at h
    split_ifs at h with hc hf
    · cases h
    · exact ⟨.waiting hf, fun ht => absurd ht hc⟩
    · cases h
  | admitted q =>
    simp only [Loader.step] at h
    split_ifs at h with hc
    · cases h
    · cases hl : (l.load q s).1 with
      | error e =>
        rw [bind_of_fst hl] at h
        cases h
      | ok f =>
        rw [bind_of_fst hl] at h
        cases h
  | reading r =>
    obtain ⟨⟨c, lines, failure⟩, n⟩ := r
    rw [Loader.step, Loader.read] at h
    cases lines with
    | nil =>
      cases failure with
      | none => cases h
      | some e =>
        simp only at h
        split_ifs at h <;> cases h
    | cons line lines =>
      simp only at h
      split_ifs at h <;> cases h
  | mapping r line => cases h
  | writing r a =>
    rw [Loader.step, Loader.store, bind_apply, bind_apply] at h
    cases hw : (l.sink.write a s).1 with
    | error e =>
      rw [hw] at h
      cases h
    | ok _ =>
      rw [hw] at h
      cases h
  | ended e => exact ⟨.ended, fun _ _ => by simp⟩
  | joined => exact ⟨.joined, fun _ _ => by simp⟩

end Steps

end DumpImport.Load
