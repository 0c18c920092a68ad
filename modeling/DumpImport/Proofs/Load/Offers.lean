import DumpImport.Proofs.Load.Lines
import DumpImport.Proofs.Load.Moves

namespace DumpImport.Load

open Record

variable {σ : Type}

def State.offer (state : State) : Move → List (Nat × Mapped)
  | .step i => ((state.tasks[i]?.map Task.offer).getD []).map (i, ·)
  | _ => []

def Loader.offered (l : Loader (StateM σ)) : State → List Move → σ → List (Nat × Mapped)
  | _, [], _ => []
  | state, a :: as, s =>
    match l.move state a s with
    | (some state', s') => state.offer a ++ l.offered state' as s'
    | (none, _) => []

inductive Call where
  | write (r : Mapped)
  | flush

/-- The sink's calls can be told from the state of the world, and nothing else is taken for one. -/
structure Noting (l : Loader (StateM σ)) (calls : σ → List Call) : Prop where
  load : ∀ p s, calls (l.load p s).2 = calls s
  draw : ∀ s, calls (l.draw s).2 = calls s
  count : ∀ k s, calls (l.count k s).2 = calls s
  write : ∀ r s, calls (l.sink.write r s).2 = calls s ++ [.write r]
  flush : ∀ s, calls (l.sink.flush s).2 = calls s ++ [.flush]

variable {l : Loader (StateM σ)} {state state₁ state' : State} {s : σ} {a : Move} {as : List Move}

lemma offered_cons (h : (l.move state a s).1 = some state₁) :
    l.offered state (a :: as) s = state.offer a ++ l.offered state₁ as (l.move state a s).2 := by
  rw [Loader.offered]
  generalize l.move state a s = x at h
  obtain ⟨_, s'⟩ := x
  cases h
  rfl

section Calls

variable {calls : σ → List Call} (hn : Noting l calls)

include hn

lemma Noting.discreet : Discreet l calls := ⟨hn.draw, hn.count⟩

lemma Noting.stop (r : Reading) (free : Nat) (s : σ) : calls (l.stop r free s).2 = calls s :=
  hn.discreet.finish _ s

lemma Noting.read (cancelled : Bool) (free : Nat) (r : Reading) (s : σ) :
    calls (l.read cancelled free r s).2 = calls s := by
  obtain ⟨⟨c, lines, failure⟩, n⟩ := r
  rw [Loader.read]
  cases lines with
  | nil =>
    cases failure with
    | none => exact hn.stop _ _ _
    | some e =>
      simp only
      split
      · exact hn.stop _ _ _
      · rfl
  | cons line lines =>
    simp only
    split
    · exact hn.stop _ _ _
    · rfl

lemma Noting.step (state : State) (t : Task) (s : σ) :
    calls (l.step state t s).2 = calls s ++ t.offer.map .write := by
  cases t with
  | waiting q =>
    rw [Loader.step]
    split_ifs <;> exact (List.append_nil _).symm
  | admitted q =>
    rw [Loader.step]
    split_ifs
    · exact (List.append_nil _).symm
    · refine Eq.trans ?_ ((hn.load q s).trans (List.append_nil _).symm)
      rw [bind_apply]
      cases (l.load q s).1 <;> rfl
  | reading r => exact (hn.read _ _ _ _).trans (List.append_nil _).symm
  | mapping r line =>
    refine Eq.trans ?_
      ((hn.discreet.prepare r.source.collection r.summary line s).1.trans (List.append_nil _).symm)
    rw [Loader.step, Loader.mapNext, bind_apply, bind_apply]
    cases (l.prepare r.source.collection r.summary line s).1 <;> rfl
  | writing r a =>
    refine Eq.trans ?_ (hn.write a s)
    rw [Loader.step, Loader.store, bind_apply, bind_apply]
    cases (l.sink.write a s).1 <;> rfl
  | ended e => exact (List.append_nil _).symm
  | joined => exact (List.append_nil _).symm

lemma Noting.move (h : (l.move state a s).1 = some state') :
    calls (l.move state a s).2 = calls s ++ (state.offer a).map fun e => .write e.2 := by
  cases a with
  | step i =>
    cases ht : state.tasks[i]? with
    | none =>
      simp only [Loader.move, ht, pure_apply] at h
      cases h
    | some t =>
      rw [move_step_snd ht]
      simp only [State.offer, ht, Option.map_some, Option.getD_some, List.map_map]
      exact hn.step state t s
  | join i =>
    rw [move_join_snd]
    exact (List.append_nil _).symm
  | close => exact (List.append_nil _).symm

lemma Noting.follow (h : (l.follow state as s).1 = some state') :
    calls (l.follow state as s).2 = calls s ++ (l.offered state as s).map fun e => .write e.2 := by
  induction as generalizing state s with
  | nil => exact (List.append_nil _).symm
  | cons a as ih =>
    obtain ⟨state₁, hx, h⟩ := move_of_follow_cons h
    rw [follow_cons_of_move hx, offered_cons hx, ih h, hn.move hx, List.map_append, List.append_assoc]

end Calls

lemma writtenBy_offer_self (i : Nat) {t : Task} (ht : state.tasks[i]? = some t) :
    writtenBy i (state.offer (.step i)) = t.offer := by
  rw [State.offer, ht]
  exact writtenBy_self i _

lemma writtenBy_offer_ne {i j : Nat} (h : i ≠ j) (state : State) : writtenBy i (state.offer (.step j)) = [] :=
  writtenBy_ne h _

def State.inHand (state : State) (i : Nat) : Nat := (state.tasks[i]?.map Task.inHand).getD 0

lemma State.inHand_set_ne {i j : Nat} (h : j ≠ i) (t : Task) :
    ((state.tasks.set j t)[i]?.map Task.inHand).getD 0 = state.inHand i := by
  rw [List.getElem?_set_ne h, State.inHand]

lemma State.inHand_joined (i : Nat) {j : Nat} {result : Except Error Summary}
    (h : state.tasks[j]? = some (.ended result)) :
    ((state.tasks.set j .joined)[i]?.map Task.inHand).getD 0 = state.inHand i := by
  by_cases hij : j = i
  · subst hij
    obtain ⟨hj, -⟩ := List.getElem?_eq_some_iff.mp h
    rw [List.getElem?_set_self hj, State.inHand, h]
    rfl
  · exact State.inHand_set_ne hij _

lemma State.inHand_le (state : State) (i : Nat) : state.inHand i ≤ 1 := by
  rw [State.inHand]
  cases state.tasks[i]? with
  | none => exact Nat.zero_le 1
  | some t => cases t <;> simp [Task.inHand]

lemma Moves.inHand (h : Moves l state s a state') (hc : state.cancelled = true) (i : Nat) :
    (writtenBy i (state.offer a)).length + state'.inHand i ≤ state.inHand i := by
  cases h with
  | @step j t t' free' task stepped =>
    have hadv : Advances l (fun _ => True) state t t' free' := advances trivial stepped
    have hspent := hadv.spent hc
    by_cases hij : j = i
    · subst hij
      obtain ⟨hj, -⟩ := List.getElem?_eq_some_iff.mp task
      rw [writtenBy_offer_self j task, State.inHand, State.inHand, List.getElem?_set_self hj, task]
      exact hspent
    · rw [writtenBy_offer_ne (Ne.symm hij)]
      exact (Nat.zero_add _).le.trans (State.inHand_set_ne hij t').le
  | join task => exact (Nat.zero_add _).le.trans (State.inHand_joined i task).le
  | joinFailure task => exact (Nat.zero_add _).le.trans (State.inHand_joined i task).le
  | joinLater task => exact (Nat.zero_add _).le.trans (State.inHand_joined i task).le
  | close => exact (Nat.zero_add _).le

lemma offered_length_le (h : (l.follow state as s).1 = some state') (hc : state.cancelled = true) (i : Nat) :
    (writtenBy i (l.offered state as s)).length ≤ state.inHand i := by
  induction as generalizing state s with
  | nil => exact Nat.zero_le _
  | cons a as ih =>
    obtain ⟨state₁, hx, h⟩ := move_of_follow_cons h
    have hm := moves_of_move hx
    have hfirst := hm.inHand hc i
    have hrest := ih h (hm.cancelled hc)
    rw [offered_cons hx, writtenBy_append, List.length_append]
    omega

end DumpImport.Load
