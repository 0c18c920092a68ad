import DumpImport.Proofs.Load.Faults
import Mathlib.Data.Prod.Lex
import Mathlib.Order.WellFounded

namespace DumpImport.Load

open Record

variable {σ : Type}

inductive Moves (l : Loader (StateM σ)) (state : State) (s : σ) : Move → State → Prop where
  | step {i t t' free'} (task : state.tasks[i]? = some t)
      (stepped : (l.step state t s).1 = some (t', free')) :
      Moves l state s (.step i) { state with tasks := state.tasks.set i t', free := free' }
  | join {i n} (task : state.tasks[i]? = some (.ended (.ok n))) :
      Moves l state s (.join i) { state with tasks := state.tasks.set i .joined, total := state.total + n }
  | joinFailure {i e} (task : state.tasks[i]? = some (.ended (.error e))) (first : state.failure = none) :
      Moves l state s (.join i)
        { state with tasks := state.tasks.set i .joined, cancelled := true, failure := some e }
  | joinLater {i e e₀} (task : state.tasks[i]? = some (.ended (.error e)))
      (before : state.failure = some e₀) :
      Moves l state s (.join i) { state with tasks := state.tasks.set i .joined }
  | close (cancelled : state.cancelled = true) (opened : state.closed = false) :
      Moves l state s .close { state with closed := true }

section Inversion

variable {l : Loader (StateM σ)} {state state' : State} {s : σ} {a : Move}

lemma join_error_first (i : Nat) (e : Error) (h : state.failure = none) : Loader.join state i (.error e) =
    { state with tasks := state.tasks.set i .joined, cancelled := true, failure := some e } := by
  cases state
  cases h
  rfl

lemma join_error_later (i : Nat) (e : Error) {e₀ : Error} (h : state.failure = some e₀) :
    Loader.join state i (.error e) = { state with tasks := state.tasks.set i .joined } := by
  cases state
  cases h
  rfl

lemma moves_of_move (h : (l.move state a s).1 = some state') : Moves l state s a state' := by
  cases a with
  | step i =>
    cases ht : state.tasks[i]? with
    | none =>
      simp only [Loader.move, ht, pure_apply] at h
      cases h
    | some t =>
      simp only [Loader.move, ht, bind_apply, pure_apply] at h
      obtain ⟨⟨t', free'⟩, hs, rfl⟩ := Option.map_eq_some_iff.mp h
      exact .step ht hs
  | join i =>
    cases ht : state.tasks[i]? with
    | none =>
      simp only [Loader.move, ht, pure_apply] at h
      cases h
    | some t =>
      cases t with
      | ended result =>
        simp only [Loader.move, ht, pure_apply] at h
        split_ifs at h
        cases h
        cases result with
        | ok n => exact .join ht
        | error e =>
          cases hf : state.failure with
          | none =>
            rw [join_error_first i e hf]
            exact .joinFailure ht hf
          | some e₀ =>
            rw [join_error_later i e hf]
            exact .joinLater ht hf
      | _ =>
        simp only [Loader.move, ht, pure_apply] at h
        cases h
  | close =>
    simp only [Loader.move, pure_apply] at h
    split_ifs at h with hc
    cases h
    rw [Bool.and_eq_true, Bool.not_eq_true'] at hc
    exact .close hc.1 hc.2

lemma move_step_snd {i : Nat} {t : Task} (ht : state.tasks[i]? = some t) :
    (l.move state (.step i) s).2 = (l.step state t s).2 := by
  simp only [Loader.move, ht, bind_apply, pure_apply]

lemma move_join_snd (i : Nat) : (l.move state (.join i) s).2 = s := by
  cases ht : state.tasks[i]? with
  | none => simp only [Loader.move, ht, pure_apply]
  | some t => cases t <;> simp only [Loader.move, ht, pure_apply]

lemma Moves.cancelled (h : Moves l state s a state') (hc : state.cancelled = true) :
    state'.cancelled = true := by
  cases h with
  | joinFailure => rfl
  | _ => exact hc

lemma Moves.failure (h : Moves l state s a state') {e : Error} (hf : state.failure = some e) :
    state'.failure = some e := by
  cases h with
  | joinFailure task first => cases first.symm.trans hf
  | _ => exact hf

end Inversion

section Runs

variable {l : Loader (StateM σ)} {state state₁ state' : State} {s : σ} {a : Move} {as bs : List Move}

lemma follow_cons_of_move (h : (l.move state a s).1 = some state₁) :
    l.follow state (a :: as) s = l.follow state₁ as (l.move state a s).2 := by
  rw [Loader.follow, bind_of_fst h]

lemma move_of_follow_cons (h : (l.follow state (a :: as) s).1 = some state') :
    ∃ state₁, (l.move state a s).1 = some state₁ ∧
    (l.follow state₁ as (l.move state a s).2).1 = some state' := by
  cases hx : (l.move state a s).1 with
  | none =>
    rw [Loader.follow, bind_of_fst hx] at h
    cases h
  | some state₁ =>
    rw [follow_cons_of_move hx] at h
    exact ⟨state₁, rfl, h⟩

lemma follow_append (h : (l.follow state as s).1 = some state') (bs : List Move) :
    l.follow state (as ++ bs) s = l.follow state' bs (l.follow state as s).2 := by
  induction as generalizing state s with
  | nil =>
    cases h
    rfl
  | cons a as ih =>
    obtain ⟨state₁, hx, h⟩ := move_of_follow_cons h
    rw [List.cons_append, follow_cons_of_move hx, follow_cons_of_move hx]
    exact ih h

lemma follow_of_follow_append (h : (l.follow state (as ++ bs) s).1 = some state') :
    ∃ mid, (l.follow state as s).1 = some mid ∧
    (l.follow mid bs (l.follow state as s).2).1 = some state' := by
  induction as generalizing state s with
  | nil => exact ⟨state, rfl, h⟩
  | cons a as ih =>
    obtain ⟨state₁, hx, h⟩ := move_of_follow_cons h
    obtain ⟨mid, hm, h⟩ := ih h
    rw [follow_cons_of_move hx]
    exact ⟨mid, hm, h⟩

end Runs

/-- What holds of a load at each of its moments: every task is at a stage of its file, the turns add
up to the limit, and who waits for the tasks knows of a failure exactly if the load is called off. -/
structure Coherent (l : Loader (StateM σ)) (met : σ → Prop) (paths : List String) (limit : Nat)
    (state : State) : Prop where
  length : state.tasks.length = paths.length
  origin : ∀ (i : Nat) (p : String) (t : Task), paths[i]? = some p →
    state.tasks[i]? = some t → t.Origin l met state.closed p
  turns : state.free + (state.tasks.map Task.turns).sum = max limit 1
  closed : state.closed = true → state.cancelled = true
  cancelled : state.cancelled = state.failure.isSome

namespace Coherent

variable {l : Loader (StateM σ)} {met : σ → Prop} {paths : List String} {limit : Nat} {state state' : State}
  {s : σ} {a : Move}

lemma start : Coherent l met paths limit (.start limit paths) := by
  refine ⟨by simp [State.start], ?_, ?_, fun h => h, rfl⟩
  · intro i p t hp ht
    simp only [State.start, List.getElem?_map, hp, Option.map_some, Option.some.injEq] at ht
    subst ht
    exact .waiting
  · have h0 : ((State.start limit paths).tasks.map Task.turns).sum = 0 := by
      apply List.sum_eq_zero
      intro n hn
      simp only [State.start, List.map_map] at hn
      obtain ⟨p, -, rfl⟩ := List.mem_map.mp hn
      rfl
    rw [h0]
    rfl

lemma origin_set (h : Coherent l met paths limit state) {i : Nat} {t t' : Task}
    (ht : state.tasks[i]? = some t)
    (ho : ∀ p, t.Origin l met state.closed p → t'.Origin l met state.closed p) :
    ∀ (j : Nat) (q : String) (u : Task), paths[j]? = some q → (state.tasks.set i t')[j]? = some u →
      u.Origin l met state.closed q := by
  obtain ⟨hi, -⟩ := List.getElem?_eq_some_iff.mp ht
  apply forall_getElem?_set (Q := fun _ q u => u.Origin l met state.closed q) h.origin hi
  · exact fun q hq => ho q (h.origin i q t hq ht)
  · exact fun _ _ _ _ hu => hu

lemma turns_joined (h : Coherent l met paths limit state) {i : Nat} {result : Except Error Summary}
    (ht : state.tasks[i]? = some (.ended result)) :
    state.free + ((state.tasks.set i .joined).map Task.turns).sum = max limit 1 := by
  have hset := sum_map_set Task.turns .joined ht
  have hall := h.turns
  simp only [Task.turns] at hset
  omega

lemma move (h : Coherent l met paths limit state) (hs : met s) (hm : Moves l state s a state') :
    Coherent l met paths limit state' := by
  cases hm with
  | @step i t t' free' task stepped =>
    have ha := advances hs stepped
    refine ⟨by simp [h.length], h.origin_set task ha.origin, ?_, h.closed, h.cancelled⟩
    have hset := sum_map_set Task.turns t' task
    have hall := h.turns
    have hturns := ha.turns
    simp only
    omega
  | join task =>
    exact ⟨by simp [h.length], h.origin_set task fun _ _ => .joined, h.turns_joined task,
      h.closed, h.cancelled⟩
  | joinFailure task first =>
    exact ⟨by simp [h.length], h.origin_set task fun _ _ => .joined, h.turns_joined task, fun _ => rfl, rfl⟩
  | joinLater task before =>
    exact ⟨by simp [h.length], h.origin_set task fun _ _ => .joined, h.turns_joined task,
      h.closed, h.cancelled⟩
  | close cancelled opened =>
    exact ⟨h.length, fun i p t hp ht => (h.origin i p t hp ht).close, h.turns,
      fun _ => cancelled, h.cancelled⟩

lemma follow (h : Coherent l met paths limit state) {as : List Move}
    (hs : ∀ past rest mid t, as = past ++ rest → l.follow state past s = (some mid, t) → met t)
    (ha : (l.follow state as s).1 = some state') : Coherent l met paths limit state' := by
  induction as generalizing state s with
  | nil =>
    cases ha
    exact h
  | cons a as ih =>
    obtain ⟨state₁, hx, ha⟩ := move_of_follow_cons ha
    have h₁ := h.move (hs [] (a :: as) state s rfl rfl) (moves_of_move hx)
    refine ih h₁ ?_ ha
    intro past rest mid t he ht
    refine hs (a :: past) rest mid t (by rw [he, List.cons_append]) ?_
    rw [follow_cons_of_move hx]
    exact ht

lemma can_move (h : Coherent l met paths limit state) (s : σ) (ho : state.isOver = false) :
    ∃ a state', (l.move state a s).1 = some state' := by
  by_contra hn
  have hnone (a : Move) : (l.move state a s).1 = none := by
    cases ha : (l.move state a s).1 with
    | none => rfl
    | some state' => exact absurd ⟨a, state', ha⟩ hn
  -- with nothing left to close, no ended task is kept from being joined
  have hagree : state.cancelled = state.closed := by
    have hclose := hnone .close
    simp only [Loader.move, pure_apply] at hclose
    split_ifs at hclose with hc
    have hclosed := h.closed
    revert hc hclosed
    cases state.cancelled <;> cases state.closed <;> simp
  have hblocked (i : Nat) (t : Task) (ht : state.tasks[i]? = some t) :
      t = .joined ∨ t.turns = 0 ∧ state.free = 0 := by
    have hstep := hnone (.step i)
    simp only [Loader.move, ht, bind_apply, pure_apply, Option.map_eq_none_iff] at hstep
    obtain ⟨hb, -⟩ := blocked_of_step hstep
    cases hb with
    | waiting full => exact .inr ⟨rfl, full⟩
    | joined => exact .inl rfl
    | ended =>
      have hjoin := hnone (.join i)
      simp only [Loader.move, ht, hagree, if_true, pure_apply] at hjoin
      cases hjoin
  have hturns : (state.tasks.map Task.turns).sum = 0 := by
    apply List.sum_eq_zero
    intro n hn
    obtain ⟨t, hm, rfl⟩ := List.mem_map.mp hn
    obtain ⟨i, hi⟩ := List.getElem?_of_mem hm
    rcases hblocked i t hi with rfl | ⟨ht, -⟩
    · rfl
    · exact ht
  have hfree := h.turns
  have hall : ¬ state.tasks.all State.isJoined = true := by
    intro hj
    rw [State.isOver, hj, hagree] at ho
    simp at ho
  rw [List.all_eq_true] at hall
  push Not at hall
  obtain ⟨t, hm, hj⟩ := hall
  obtain ⟨i, hi⟩ := List.getElem?_of_mem hm
  rcases hblocked i t hi with rfl | ⟨-, h0⟩
  · exact hj rfl
  · omega

end Coherent

section Progress

variable {l : Loader (StateM σ)} {state state' : State} {s : σ} {a : Move}

/-- How much is left to do: files that are not open yet weigh more than any number of lines. -/
def State.remaining (state : State) : Nat ×ₗ Nat :=
  toLex ((state.tasks.map Task.unopened).sum, (state.tasks.map Task.ahead).sum + (!state.closed).toNat)

lemma remaining_joined {i : Nat} {result : Except Error Summary}
    (ht : state.tasks[i]? = some (.ended result)) :
    ((state.tasks.set i .joined).map Task.unopened).sum = (state.tasks.map Task.unopened).sum ∧
      ((state.tasks.set i .joined).map Task.ahead).sum < (state.tasks.map Task.ahead).sum := by
  have hu := sum_map_set Task.unopened .joined ht
  have ha := sum_map_set Task.ahead .joined ht
  simp only [Task.unopened, Task.ahead] at hu ha
  omega

lemma Moves.remaining_lt (h : Moves l state s a state') : state'.remaining < state.remaining := by
  rw [State.remaining, State.remaining, Prod.Lex.toLex_lt_toLex]
  cases h with
  | @step i t t' free' task stepped =>
    have hu := sum_map_set Task.unopened t' task
    have ha := sum_map_set Task.ahead t' task
    have hadv : Advances l (fun _ => True) state t t' free' := advances trivial stepped
    have hn := hadv.nearer
    simp only
    omega
  | join task =>
    obtain ⟨hu, ha⟩ := remaining_joined task
    exact .inr ⟨hu, Nat.add_lt_add_right ha _⟩
  | joinFailure task first =>
    obtain ⟨hu, ha⟩ := remaining_joined task
    exact .inr ⟨hu, Nat.add_lt_add_right ha _⟩
  | joinLater task before =>
    obtain ⟨hu, ha⟩ := remaining_joined task
    exact .inr ⟨hu, Nat.add_lt_add_right ha _⟩
  | close cancelled opened =>
    rw [opened]
    exact .inr ⟨rfl, Nat.lt_succ_self _⟩

lemma not_endless (state : State) (s : σ) (moves : Nat → Move) :
    ∃ n, (l.follow state ((List.range n).map moves) s).1 = none := by
  induction hr : state.remaining using WellFoundedLT.induction generalizing state s moves with
  | ind r ih =>
    cases hx : (l.move state (moves 0) s).1 with
    | none => exact ⟨1, by rw [List.range_one, List.map_singleton, Loader.follow, bind_of_fst hx]; rfl⟩
    | some state₁ =>
      obtain ⟨n, hn⟩ := ih _ (hr ▸ (moves_of_move hx).remaining_lt) state₁ (l.move state (moves 0) s).2
        (fun k => moves (k + 1)) rfl
      refine ⟨n + 1, ?_⟩
      rw [List.range_succ_eq_map, List.map_cons, List.map_map, follow_cons_of_move hx]
      exact hn

lemma Coherent.can_finish {met : σ → Prop} {paths : List String} {limit : Nat} (hmet : ∀ t, met t)
    (h : Coherent l met paths limit state) (s : σ) :
    ∃ as state', (l.follow state as s).1 = some state' ∧ state'.isOver = true := by
  induction hr : state.remaining using WellFoundedLT.induction generalizing state s with
  | ind r ih =>
    cases ho : state.isOver with
    | true => exact ⟨[], state, rfl, ho⟩
    | false =>
      obtain ⟨a, state₁, ha⟩ := h.can_move s ho
      have hm := moves_of_move ha
      obtain ⟨as, state₂, has, hover⟩ :=
        ih _ (hr ▸ hm.remaining_lt) (h.move (hmet s) hm) (l.move state a s).2 rfl
      refine ⟨a :: as, state₂, ?_, hover⟩
      rw [follow_cons_of_move ha]
      exact has

end Progress

section Ends

variable {l : Loader (StateM σ)} {limit : Nat} {paths : List String} {state state' : State}
  {s : σ} {as : List Move}

lemma joined_of_isOver (ho : state.isOver = true) {i : Nat} {t : Task} (hi : state.tasks[i]? = some t) :
    t = .joined := by
  have hj := List.all_eq_true.mp (Bool.and_eq_true_iff.mp ho).1 t (List.mem_of_getElem? hi)
  cases t with
  | joined => rfl
  | _ => cases hj

lemma runUnder_of_isOver (h : (l.follow (.start limit paths) as s).1 = some state')
    (ho : state'.isOver = true) :
    l.runUnder limit as paths s =
      (some (l.conclude state' (l.follow (.start limit paths) as s).2).1,
        (l.conclude state' (l.follow (.start limit paths) as s).2).2) := by
  rw [Loader.runUnder, bind_of_fst h]
  simp only [ho, if_true]
  rfl

lemma isOver_of_runUnder {out : Except Error Summary}
    (h : (l.runUnder limit as paths s).1 = some out) :
    ∃ state', (l.follow (.start limit paths) as s).1 = some state' ∧ state'.isOver = true := by
  rw [Loader.runUnder] at h
  cases hf : (l.follow (.start limit paths) as s).1 with
  | none =>
    rw [bind_of_fst hf] at h
    cases h
  | some state' =>
    rw [bind_of_fst hf] at h
    cases ho : state'.isOver with
    | false =>
      simp only [ho] at h
      cases h
    | true => exact ⟨state', rfl, ho⟩

lemma can_conclude (h : (l.follow (.start limit paths) as s).1 = some state) :
    ∃ rest out, (l.runUnder limit (as ++ rest) paths s).1 = some out := by
  have hc : Coherent l (fun _ => True) paths limit state :=
    Coherent.start.follow (fun _ _ _ _ _ _ => trivial) h
  obtain ⟨rest, state', hrest, ho⟩ := hc.can_finish (fun _ => trivial) (l.follow (.start limit paths) as s).2
  have happ : (l.follow (.start limit paths) (as ++ rest) s).1 = some state' := by
    rw [follow_append h]
    exact hrest
  exact ⟨rest, _, by rw [runUnder_of_isOver happ ho]⟩

end Ends

end DumpImport.Load
