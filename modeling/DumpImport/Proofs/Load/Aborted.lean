import DumpImport.Proofs.Load.Offers

/-! A load in which something fails: it is given up for the first failure that is joined, and what
is still on its way to the sink by then is at most one record of each file. -/

namespace DumpImport.Load

open Record

variable {σ : Type}

namespace Loader

variable (l : Loader (StateM σ)) (limit : Nat) (paths : List String) (s : σ) (schedule : List Move)

def Meets (t : σ) : Prop :=
  ∃ past rest state, schedule = past ++ rest ∧ l.follow (.start limit paths) past s = (some state, t)

def Fails (i : Nat) (e : Error) : Prop :=
  ∃ past rest state, schedule = past ++ rest ∧ (l.follow (.start limit paths) past s).1 = some state ∧
    state.tasks[i]? = some (.ended (.error e))

def JoinsFirst (i : Nat) (e : Error) : Prop :=
  ∃ past rest state, schedule = past ++ .join i :: rest ∧
    (l.follow (.start limit paths) past s).1 = some state ∧ state.tasks[i]? = some (.ended (.error e)) ∧
    ∀ before j after state' e', past = before ++ .join j :: after →
      (l.follow (.start limit paths) before s).1 = some state' → state'.tasks[j]? ≠ some (.ended (.error e'))

end Loader

section Failures

variable {l : Loader (StateM σ)} {state state' : State} {s : σ} {a : Move} {as : List Move}

def State.Failing (state : State) : Prop :=
  state.failure ≠ none ∨ ∃ (i : Nat) (e : Error), state.tasks[i]? = some (.ended (.error e))

lemma failing_set {i j : Nat} {e : Error} {t : Task} (hij : i ≠ j)
    (hj : state.tasks[j]? = some (.ended (.error e))) :
    (state.tasks.set i t)[j]? = some (.ended (.error e)) := by
  rw [List.getElem?_set_ne hij]
  exact hj

lemma Moves.failing (h : Moves l state s a state') (hf : state.Failing) : state'.Failing := by
  cases h with
  | @step i t t' free' task stepped =>
    rcases hf with hf | ⟨j, e, hj⟩
    · exact .inl hf
    · refine .inr ⟨j, e, failing_set ?_ hj⟩
      rintro rfl
      cases task.symm.trans hj
      cases stepped
  | @join i n task =>
    rcases hf with hf | ⟨j, e, hj⟩
    · exact .inl hf
    · refine .inr ⟨j, e, failing_set ?_ hj⟩
      rintro rfl
      cases task.symm.trans hj
  | joinFailure => exact .inl (by simp)
  | joinLater task before => exact .inl (by simp [before])
  | close => exact hf

lemma failing_follow (h : (l.follow state as s).1 = some state') (hf : state.Failing) : state'.Failing := by
  induction as generalizing state s with
  | nil =>
    cases h
    exact hf
  | cons a as ih =>
    obtain ⟨state₁, hx, h⟩ := move_of_follow_cons h
    exact ih h ((moves_of_move hx).failing hf)

lemma failure_follow (h : (l.follow state as s).1 = some state') {e : Error} (hf : state.failure = some e) :
    state'.failure = some e := by
  induction as generalizing state s with
  | nil =>
    cases h
    exact hf
  | cons a as ih =>
    obtain ⟨state₁, hx, h⟩ := move_of_follow_cons h
    exact ih h ((moves_of_move hx).failure hf)

lemma failure_of_isOver (ho : state.isOver = true) (hf : state.Failing) : state.failure ≠ none := by
  rcases hf with hf | ⟨i, e, hi⟩
  · exact hf
  · cases joined_of_isOver ho hi

lemma exists_joined (h : (l.follow state as s).1 = some state') (hn : state.failure = none) {e : Error}
    (he : state'.failure = some e) : ∃ past i rest mid, as = past ++ .join i :: rest ∧
      (l.follow state past s).1 = some mid ∧ mid.failure = none ∧
      mid.tasks[i]? = some (.ended (.error e)) := by
  induction as generalizing state s with
  | nil =>
    cases h
    cases hn.symm.trans he
  | cons a as ih =>
    obtain ⟨state₁, hx, h⟩ := move_of_follow_cons h
    have later (hf : state₁.failure = none) : ∃ past i rest mid, a :: as = past ++ .join i :: rest ∧
        (l.follow state past s).1 = some mid ∧ mid.failure = none ∧
        mid.tasks[i]? = some (.ended (.error e)) := by
      obtain ⟨past, i, rest, mid, rfl, hp, hm⟩ := ih h hf
      exact ⟨a :: past, i, rest, mid, rfl, by rw [follow_cons_of_move hx]; exact hp, hm⟩
    cases moves_of_move hx with
    | @joinFailure i e₁ task first =>
      obtain rfl : e₁ = e := Option.some.inj ((failure_follow h rfl).symm.trans he)
      exact ⟨[], i, as, state, rfl, rfl, hn, task⟩
    | _ => exact later hn

lemma not_joined {i : Nat} {e : Error} {before after : List Move} {mid : State}
    (h : (l.follow state (before ++ .join i :: after) s).1 = some state') (hn : state'.failure = none)
    (hb : (l.follow state before s).1 = some mid) : mid.tasks[i]? ≠ some (.ended (.error e)) := by
  intro hi
  obtain ⟨mid', hm, h⟩ := follow_of_follow_append h
  cases hb.symm.trans hm
  obtain ⟨next, hx, h⟩ := move_of_follow_cons h
  have hf : next.failure ≠ none := by
    cases moves_of_move hx with
    | join task => cases hi.symm.trans task
    | joinFailure => simp
    | joinLater task before => simp [before]
  obtain ⟨e', he⟩ := Option.ne_none_iff_exists'.mp hf
  cases hn.symm.trans (failure_follow h he)

end Failures

section Results

variable {l : Loader (StateM σ)} {limit : Nat} {paths : List String} {s : σ}
  {schedule : List Move} {state : State}

lemma coherent_of_prefix {past rest : List Move} (he : schedule = past ++ rest)
    (h : (l.follow (.start limit paths) past s).1 = some state) :
    Coherent l (l.Meets limit paths s schedule) paths limit state := by
  refine Coherent.start.follow ?_ h
  intro past' rest' mid t he' ht
  exact ⟨past', rest' ++ rest, mid, by rw [he, he', List.append_assoc], ht⟩

lemma failing_iff (h : (l.follow (.start limit paths) schedule s).1 = some state) (ho : state.isOver = true) :
    state.failure ≠ none ↔ ∃ i e, l.Fails limit paths s schedule i e := by
  constructor
  · intro hf
    obtain ⟨e, he⟩ := Option.ne_none_iff_exists'.mp hf
    obtain ⟨past, i, rest, mid, rfl, hm, -, hi⟩ := exists_joined h rfl he
    exact ⟨i, e, past, _, mid, rfl, hm, hi⟩
  · rintro ⟨i, e, past, rest, mid, rfl, hm, hi⟩
    obtain ⟨mid', hm', h⟩ := follow_of_follow_append h
    cases hm.symm.trans hm'
    exact failure_of_isOver ho (failing_follow h (.inr ⟨i, e, hi⟩))

lemma joinsFirst_of_failure (h : (l.follow (.start limit paths) schedule s).1 = some state) {e : Error}
    (he : state.failure = some e) : ∃ i p, paths[i]? = some p ∧ l.JoinsFirst limit paths s schedule i e ∧
      OwnFault l (l.Meets limit paths s schedule) p e := by
  obtain ⟨past, i, rest, mid, hsplit, hm, hnone, hi⟩ := exists_joined h rfl he
  have hc := coherent_of_prefix hsplit hm
  obtain ⟨hlt, -⟩ := List.getElem?_eq_some_iff.mp hi
  rw [hc.length] at hlt
  have hp := List.getElem?_eq_getElem hlt
  refine ⟨i, paths[i], hp, ⟨past, rest, mid, hsplit, hm, hi, ?_⟩, ?_⟩
  · rintro before j after state' e' rfl hb
    exact not_joined hm hnone hb
  · cases hc.origin i paths[i] _ hp hi with
    | failed own => exact own
    | abandoned shut =>
      have hcancelled := hc.cancelled
      rw [hc.closed shut, hnone] at hcancelled
      cases hcancelled

lemma step_of_isOver (ho : state.isOver = true) (i : Nat) (t : σ) : l.move state (.step i) t = (none, t) := by
  cases hi : state.tasks[i]? with
  | none => simp only [Loader.move, hi, pure_apply]
  | some u =>
    obtain rfl := joined_of_isOver ho hi
    simp only [Loader.move, hi, bind_apply, Loader.step, pure_apply, Option.map_none]

lemma conclude_of_failure {e : Error} (h : state.failure = some e) (t : σ) :
    l.conclude state t = (.error e, t) := by
  rw [Loader.conclude, h]
  rfl

lemma conclude_of_none (h : state.failure = none) (t : σ) :
    (∀ u, (l.sink.flush t).1 = .ok u → (l.conclude state t).1 = .ok state.total) ∧
    (∀ e, (l.sink.flush t).1 = .error e → (l.conclude state t).1 = .error (.sink e)) ∧
    (l.conclude state t).2 = (l.sink.flush t).2 := by
  rw [Loader.conclude, h]
  simp only [bind_apply]
  cases (l.sink.flush t).1 <;> simp [pure_apply]

end Results

structure Concludes (l : Loader (StateM σ)) (limit : Nat) (paths : List String) (s : σ) (schedule : List Move)
    (out : Except Error Summary) : Prop where
  ok_iff : (∃ n, out = .ok n) ↔ (¬ ∃ i e, l.Fails limit paths s schedule i e) ∧
    ∃ u, (l.sink.flush (l.follow (.start limit paths) schedule s).2).1 = .ok u
  not_flushed : (¬ ∃ i e, l.Fails limit paths s schedule i e) →
    ∀ e, (l.sink.flush (l.follow (.start limit paths) schedule s).2).1 = .error e → out = .error (.sink e)
  first_failure : (∃ i e, l.Fails limit paths s schedule i e) →
    ∃ i p e, paths[i]? = some p ∧ l.JoinsFirst limit paths s schedule i e ∧
      OwnFault l (l.Meets limit paths s schedule) p e ∧ out = .error e
  not_abandoned : out ≠ .error .abandoned
  asked : ∀ calls : σ → List Call, Noting l calls →
    ((∃ i e, l.Fails limit paths s schedule i e) → calls (l.runUnder limit schedule paths s).2 =
      calls s ++ (l.offered (.start limit paths) schedule s).map fun e => .write e.2) ∧
    ((¬ ∃ i e, l.Fails limit paths s schedule i e) → calls (l.runUnder limit schedule paths s).2 =
      calls s ++ ((l.offered (.start limit paths) schedule s).map fun e => .write e.2) ++ [.flush])
  at_rest : ∀ state, (l.follow (.start limit paths) schedule s).1 = some state →
    ∀ i t, l.move state (.step i) t = (none, t)

lemma concludes_of_runUnder {l : Loader (StateM σ)} {limit : Nat} {paths : List String} {s : σ}
    {schedule : List Move} {out : Except Error Summary}
    (h : (l.runUnder limit schedule paths s).1 = some out) : Concludes l limit paths s schedule out := by
  obtain ⟨state, hf, ho⟩ := isOver_of_runUnder h
  have hrun := runUnder_of_isOver hf ho
  rw [hrun] at h
  have hout := Option.some.inj h
  have hrest : ∀ state, (l.follow (.start limit paths) schedule s).1 = some state →
      ∀ i t, l.move state (.step i) t = (none, t) := by
    intro state' hf'
    cases hf.symm.trans hf'
    exact step_of_isOver ho
  have hiff := failing_iff hf ho
  cases hfail : state.failure with
  | some e =>
    have hfails := hiff.mp (by simp [hfail])
    rw [conclude_of_failure hfail] at hout hrun
    obtain ⟨i, p, hp, hj, hown⟩ := joinsFirst_of_failure hf hfail
    subst hout
    refine ⟨by simp [hfails], fun hn => absurd hfails hn,
      fun _ => ⟨i, p, e, hp, hj, hown, rfl⟩, ?_, ?_, hrest⟩
    · intro he
      exact hown.ne_abandoned (Except.error.inj he)
    · intro calls hn
      refine ⟨fun _ => ?_, fun h => absurd hfails h⟩
      rw [hrun]
      exact hn.follow hf
  | none =>
    have hfails : ¬ ∃ i e, l.Fails limit paths s schedule i e := fun h => hiff.mpr h hfail
    obtain ⟨hok, herror, hstate⟩ :=
      conclude_of_none (l := l) hfail (l.follow (.start limit paths) schedule s).2
    have hasked : ∀ calls : σ → List Call, Noting l calls → calls (l.runUnder limit schedule paths s).2 =
        calls s ++ ((l.offered (.start limit paths) schedule s).map fun e => .write e.2) ++ [.flush] := by
      intro calls hn
      rw [hrun, ← hn.follow hf, ← hn.flush, ← hstate]
    cases hflush : (l.sink.flush (l.follow (.start limit paths) schedule s).2).1 with
    | ok u =>
      rw [hok u hflush] at hout
      subst hout
      refine ⟨by simp [hfails, hflush], ?_, fun h => absurd h hfails, by simp,
        fun calls hn => ⟨fun h => absurd h hfails, fun _ => hasked calls hn⟩, hrest⟩
      intro _ e he
      cases hflush.symm.trans he
    | error e =>
      rw [herror e hflush] at hout
      subst hout
      refine ⟨by simp [hflush], ?_, fun h => absurd h hfails, by simp,
        fun calls hn => ⟨fun h => absurd h hfails, fun _ => hasked calls hn⟩, hrest⟩
      intro _ e' he
      cases hflush.symm.trans he
      rfl

/-- Whatever fails and in whatever order the tasks move, a load returns counts exactly if no task
fails and the sink can be flushed. Otherwise it returns the first failure that is joined, which is a
file's own, and leaves the sink unflushed. Tasks still waiting when nobody may be admitted any more
are abandoned. Once the load is called off, each file gives the sink at most one more record, and
none after the load has returned. No order of moves goes on forever or gets stuck. -/
theorem load_returns_first_failure (l : Loader (StateM σ)) (limit : Nat) (paths : List String) (s : σ) :
    (∀ schedule out, (l.runUnder limit schedule paths s).1 = some out →
      Concludes l limit paths s schedule out) ∧
    (∀ past state t, l.follow (.start limit paths) past s = (some state, t) →
      (state.closed = true → ∀ i p, state.tasks[i]? = some (.waiting p) → ∀ t', l.move state (.step i) t' =
        (some { state with tasks := state.tasks.set i (.ended (.error .abandoned)) }, t')) ∧
      (state.cancelled = true → ∀ as state', (l.follow state as t).1 = some state' →
        ∀ i, (writtenBy i (l.offered state as t)).length ≤ 1) ∧
      (∀ calls : σ → List Call, Noting l calls → ∀ as state', (l.follow state as t).1 = some state' →
        calls (l.follow state as t).2 = calls t ++ (l.offered state as t).map fun e => .write e.2) ∧
      ∃ rest out, (l.runUnder limit (past ++ rest) paths s).1 = some out) ∧
    ∀ moves : Nat → Move, ∃ n, (l.follow (.start limit paths) ((List.range n).map moves) s).1 = none := by
  refine ⟨fun schedule out h => concludes_of_runUnder h, ?_, not_endless _ s⟩
  intro past state t h
  have hf : (l.follow (.start limit paths) past s).1 = some state := by rw [h]
  refine ⟨?_, ?_, fun calls hn as state' ha => hn.follow ha, can_conclude hf⟩
  · intro hclosed i p hi t'
    simp only [Loader.move, hi, bind_apply, Loader.step, hclosed, if_true, pure_apply, Option.map_some]
  · intro hc as state' ha i
    exact (offered_length_le ha hc i).trans (state.inHand_le i)

def emptyHandedLoader : Loader (StateM (List Call)) where
  load p := pure (.error (.unreadable p (.file .notFound)))
  draw := pure Mapper.sampleDraw
  mapper := .sample
  sink := ⟨fun r calls => (.ok (), calls ++ [.write r]), fun calls => (.ok (), calls ++ [.flush])⟩
  count _ := pure ()

lemma emptyHandedLoader_noting : Noting emptyHandedLoader id :=
  ⟨fun _ _ => rfl, fun _ => rfl, fun _ _ => rfl, fun _ _ => rfl, fun _ => rfl⟩

def givenUp : List Move := [.step 0, .step 0, .join 0, .close, .step 1, .join 1]

theorem load_returns_first_failure_sample :
    ∃ i e, (emptyHandedLoader.runUnder 1 givenUp ["a", "b"] []).1 = some (.error e) ∧
      emptyHandedLoader.JoinsFirst 1 ["a", "b"] [] givenUp i e ∧ e ≠ .abandoned ∧
      emptyHandedLoader.Fails 1 ["a", "b"] [] givenUp 1 .abandoned ∧
      (emptyHandedLoader.runUnder 1 givenUp ["a", "b"] []).2 = [] := by
  have hrun : (emptyHandedLoader.runUnder 1 givenUp ["a", "b"] []).1 =
      some (.error (.dump (.unreadable "a" (.file .notFound)))) := rfl
  have hfails : emptyHandedLoader.Fails 1 ["a", "b"] [] givenUp 1 .abandoned :=
    ⟨givenUp.take 5, givenUp.drop 5, _, rfl, rfl, rfl⟩
  obtain ⟨hall, -, -⟩ := load_returns_first_failure emptyHandedLoader 1 ["a", "b"] []
  have hc := hall givenUp _ hrun
  obtain ⟨i, p, e, -, hj, hown, he⟩ := hc.first_failure ⟨1, _, hfails⟩
  rw [he] at hrun
  exact ⟨i, e, hrun, hj, hown.ne_abandoned, hfails, (hc.asked id emptyHandedLoader_noting).1 ⟨1, _, hfails⟩⟩

end DumpImport.Load
