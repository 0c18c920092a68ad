import DumpImport.Proofs.Load.Moves
import DumpImport.Proofs.Load.Tasks

namespace DumpImport.Load

open Record

variable {σ : Type}

/-- The state of a steady load after some moves: it has not failed, each task is at a stage of its
file, and what was counted and what is owed add up to the whole. -/
structure Sound (l : Loader (StateM σ)) (received : σ → List Mapped) (contents : String → Dump.Source)
    (paths : List String) (limit : Nat) (before : List Mapped) (state : State) (s : σ)
    (log : List (Nat × Mapped)) : Prop where
  coherent : Coherent l (fun _ => True) paths limit state
  failure : state.failure = none
  stages : ∀ i p t, paths[i]? = some p → state.tasks[i]? = some t →
    Task.Stage l.mapper contents p t (writtenBy i log)
  labels : ∀ e ∈ log, e.1 < paths.length
  received : received s = before ++ log.map Prod.snd
  total : state.total + (state.tasks.map (Task.owed l.mapper contents)).sum =
    (paths.map fun p => countedFile l.mapper (contents p)).sum

def State.left (contents : String → Dump.Source) (state : State) : Nat :=
  (state.tasks.map (Task.left contents)).sum

variable {l : Loader (StateM σ)} {received : σ → List Mapped} {contents : String → Dump.Source}
  {paths : List String} {limit : Nat} {before : List Mapped} {state : State} {s : σ}
  {log : List (Nat × Mapped)}

lemma Sound.start (s : σ) : Sound l received contents paths limit (received s) (.start limit paths) s [] := by
  refine ⟨Coherent.start, rfl, ?_, fun _ he => (nomatch he), by simp, ?_⟩
  · intro i p t hp ht
    simp only [State.start, List.getElem?_map, hp, Option.map_some, Option.some.injEq] at ht
    subst ht
    exact .waiting
  · simp only [State.start, List.map_map]
    exact zero_add _

namespace Sound

lemma cancelled (h : Sound l received contents paths limit before state s log) : state.cancelled = false := by
  rw [h.coherent.cancelled, h.failure]
  rfl

lemma closed (h : Sound l received contents paths limit before state s log) : state.closed = false := by
  rw [← Bool.not_eq_true]
  intro hc
  cases h.cancelled.symm.trans (h.coherent.closed hc)

lemma path (h : Sound l received contents paths limit before state s log) {i : Nat} {t : Task}
    (ht : state.tasks[i]? = some t) : ∃ p ∈ paths, paths[i]? = some p := by
  obtain ⟨hi, -⟩ := List.getElem?_eq_some_iff.mp ht
  rw [h.coherent.length] at hi
  exact ⟨paths[i], List.getElem_mem hi, List.getElem?_eq_getElem hi⟩

lemma stages_set (h : Sound l received contents paths limit before state s log) {i : Nat}
    {p : String} {t t' : Task} {log' : List (Nat × Mapped)} (ht : state.tasks[i]? = some t)
    (hp : paths[i]? = some p) (hs : Task.Stage l.mapper contents p t' (writtenBy i log'))
    (hne : ∀ j, j ≠ i → writtenBy j log' = writtenBy j log) :
    ∀ j q u, paths[j]? = some q → (state.tasks.set i t')[j]? = some u →
      Task.Stage l.mapper contents q u (writtenBy j log') := by
  obtain ⟨hi, -⟩ := List.getElem?_eq_some_iff.mp ht
  apply forall_getElem?_set
    (Q := fun j q u => Task.Stage l.mapper contents q u (writtenBy j log')) h.stages hi
  · intro q hq
    cases hp.symm.trans hq
    exact hs
  · intro j q u hij hu
    rwa [hne j hij]

lemma step (h : Sound l received contents paths limit before state s log) {i : Nat} {p : String} {t t' : Task}
    {free' : Nat} {new : List Mapped} {s' : σ}
    (hco : Coherent l (fun _ => True) paths limit { state with tasks := state.tasks.set i t', free := free' })
    (hp : paths[i]? = some p) (ht : state.tasks[i]? = some t) (hr : received s' = received s ++ new)
    (hs : Steps l.mapper contents p t (writtenBy i log) t' new) :
    Sound l received contents paths limit before
      { state with tasks := state.tasks.set i t', free := free' } s'
      (log ++ new.map (i, ·)) := by
  refine ⟨hco, h.failure, ?_, ?_, ?_, ?_⟩
  · refine h.stages_set ht hp ?_ fun j hij => ?_
    · rw [writtenBy_append, writtenBy_self]
      exact hs.stage
    · rw [writtenBy_append, writtenBy_ne hij, List.append_nil]
  · intro e he
    rcases List.mem_append.mp he with he | he
    · exact h.labels e he
    · obtain ⟨r, -, rfl⟩ := List.mem_map.mp he
      exact (List.getElem?_eq_some_iff.mp hp).1
  · simp [hr, h.received, List.map_map, Function.comp_def]
  · rw [map_set_of_eq ht hs.owed]
    exact h.total

lemma join (h : Sound l received contents paths limit before state s log) {i : Nat} {p : String} {n : Summary}
    (hco : Coherent l (fun _ => True) paths limit
      { state with tasks := state.tasks.set i .joined, total := state.total + n })
    (hp : paths[i]? = some p) (ht : state.tasks[i]? = some (.ended (.ok n))) :
    Sound l received contents paths limit before
      { state with tasks := state.tasks.set i .joined, total := state.total + n } s log := by
  refine ⟨hco, h.failure, ?_, h.labels, h.received, ?_⟩
  · refine h.stages_set ht hp ?_ fun _ _ => rfl
    have hst := h.stages i p _ hp ht
    cases hst with
    | ended kept => exact .joined kept
  · have hset := sum_map_set (Task.owed l.mapper contents) .joined ht
    simp only [Task.owed, add_zero] at hset ⊢
    rw [add_assoc, add_comm n, hset]
    exact h.total

lemma not_failed (h : Sound l received contents paths limit before state s log) {i : Nat} {e : Error} :
    state.tasks[i]? ≠ some (.ended (.error e)) := by
  intro ht
  obtain ⟨p, -, hi⟩ := h.path ht
  cases h.stages i p _ hi ht

lemma move (hl : Steady l received contents paths)
    (h : Sound l received contents paths limit before state s log)
    {a : Move} {state' : State} (ha : (l.move state a s).1 = some state') :
    ∃ log', Sound l received contents paths limit before state' (l.move state a s).2 log' ∧
      state'.left contents < state.left contents := by
  have hm := moves_of_move ha
  have hco := h.coherent.move trivial hm
  cases hm with
  | @step i t t' free' task stepped =>
    obtain ⟨p, hp, hi⟩ := h.path task
    obtain ⟨new, hr, hs⟩ := hl.step hp (h.stages i p t hi task) h.cancelled h.closed stepped
    rw [move_step_snd task]
    refine ⟨_, h.step hco hi task hr hs, ?_⟩
    have hset := sum_map_set (Task.left contents) t' task
    have hleft := hs.left
    simp only [State.left]
    omega
  | @join i n task =>
    obtain ⟨p, -, hi⟩ := h.path task
    rw [move_join_snd]
    refine ⟨log, h.join hco hi task, ?_⟩
    have hset := sum_map_set (Task.left contents) .joined task
    simp only [State.left, Task.left] at hset ⊢
    omega
  | joinFailure task | joinLater task => exact absurd task h.not_failed
  | close cancelled => cases h.cancelled.symm.trans cancelled

lemma follow (hl : Steady l received contents paths)
    (h : Sound l received contents paths limit before state s log)
    {as : List Move} {state' : State} (ha : (l.follow state as s).1 = some state') :
    ∃ log', Sound l received contents paths limit before state' (l.follow state as s).2 log' ∧
      as.length + state'.left contents ≤ state.left contents := by
  induction as generalizing state s log with
  | nil =>
    cases ha
    exact ⟨log, h, by simp⟩
  | cons a as ih =>
    obtain ⟨state₁, hx, ha⟩ := move_of_follow_cons ha
    obtain ⟨log₁, h₁, hlt⟩ := h.move hl hx
    obtain ⟨log₂, h₂, hle⟩ := ih h₁ ha
    rw [follow_cons_of_move hx, List.length_cons]
    exact ⟨log₂, h₂, by omega⟩

lemma total_eq (h : Sound l received contents paths limit before state s log) (ho : state.isOver = true) :
    state.total = (paths.map fun p => countedFile l.mapper (contents p)).sum := by
  have h0 : (state.tasks.map (Task.owed l.mapper contents)).sum = 0 := by
    apply List.sum_eq_zero
    intro n hn
    obtain ⟨t, hm, rfl⟩ := List.mem_map.mp hn
    obtain ⟨i, hi⟩ := List.getElem?_of_mem hm
    obtain rfl := joined_of_isOver ho hi
    rfl
  have ht := h.total
  rwa [h0, add_zero] at ht

lemma kept (h : Sound l received contents paths limit before state s log) (ho : state.isOver = true) {i : Nat}
    {p : String} (hp : paths[i]? = some p) :
    Kept l.mapper (contents p).collection (contents p).lines (writtenBy i log) := by
  obtain ⟨hi, -⟩ := List.getElem?_eq_some_iff.mp hp
  rw [← h.coherent.length] at hi
  have ht := List.getElem?_eq_getElem hi
  have hst := h.stages i p _ hp ht
  rw [joined_of_isOver ho ht] at hst
  cases hst with
  | joined kept => exact kept

end Sound

lemma conclude (hl : Steady l received contents paths)
    (h : Sound l received contents paths limit before state s log) (ho : state.isOver = true) :
    (l.conclude state s).1 = .ok (paths.map fun p => countedFile l.mapper (contents p)).sum ∧
      received (l.conclude state s).2 = before ++ log.map Prod.snd := by
  obtain ⟨hf, hr⟩ := hl.flush s
  rw [Loader.conclude, h.failure, ← h.total_eq ho]
  simp only
  rw [bind_of_fst hf]
  exact ⟨rfl, hr.trans h.received⟩

/-- Whatever the limit and whatever the order of the moves, a load of files that can all be read into
a sink that never fails ends as the load of one file after the other does; the sink has the kept
records of every file in the order of its lines; and no order of moves goes on forever or gets stuck. -/
theorem concurrent_eq_sequential (hl : Steady l received contents paths) (limit : Nat) (s : σ) :
    ∃ per : String → Summary,
      (∀ p ∈ paths, ∀ s, (l.file p s).1 = .ok (per p)) ∧
      (l.run paths s).1 = .ok (paths.map per).sum ∧
      (paths.map per).sum.files = paths.length ∧
      (paths.map per).sum.records = (paths.map fun p => (contents p).lines.length).sum ∧
      (∀ (schedule : List Move) (out : Except Error Summary),
        (l.runUnder limit schedule paths s).1 = some out →
        out = .ok (paths.map per).sum ∧
        ∃ log : List (Nat × Mapped),
          received (l.runUnder limit schedule paths s).2 = received s ++ log.map Prod.snd ∧
          (∀ e ∈ log, e.1 < paths.length) ∧
          ∀ i p, paths[i]? = some p →
            Kept l.mapper (contents p).collection (contents p).lines (writtenBy i log)) ∧
      ∀ (schedule : List Move) (state : State), (l.follow (.start limit paths) schedule s).1 = some state →
        schedule.length ≤ (paths.map fun p => 3 * (contents p).lines.length + 4).sum ∧
        ∃ rest out, (l.runUnder limit (schedule ++ rest) paths s).1 = some out := by
  have h₀ : Sound l received contents paths limit (received s) (.start limit paths) s [] := Sound.start s
  refine ⟨fun p => countedFile l.mapper (contents p), fun p hp s => (hl.file hp s).1, hl.run s,
    (sum_totals contents paths).1, (sum_totals contents paths).2, ?_, ?_⟩
  · intro schedule out hout
    obtain ⟨state, hf, ho⟩ := isOver_of_runUnder hout
    obtain ⟨log, hs, -⟩ := h₀.follow hl hf
    obtain ⟨hc, hr⟩ := conclude hl hs ho
    rw [runUnder_of_isOver hf ho] at hout ⊢
    cases hout
    exact ⟨hc, log, hr, hs.labels, fun i p hp => hs.kept ho hp⟩
  · intro schedule state hf
    obtain ⟨log, hs, hlen⟩ := h₀.follow hl hf
    have hleft : (State.start limit paths).left contents =
        (paths.map fun p => 3 * (contents p).lines.length + 4).sum := by
      simp only [State.left, State.start, List.map_map]
      rfl
    exact ⟨by omega, can_conclude hf⟩

def sampleSource : Dump.Source := ⟨.unset, [Mapper.sampleLine, "no record"], none⟩

def sampleLoader : Loader (StateM (List Mapped)) where
  load _ := pure (.ok sampleSource)
  draw := pure Mapper.sampleDraw
  mapper := .sample
  sink := ⟨fun r rs => (.ok (), rs ++ [r]), pure (.ok ())⟩
  count _ := pure ()

lemma sampleLoader_steady (paths : List String) : Steady sampleLoader id (fun _ => sampleSource) paths :=
  ⟨fun _ _ _ => ⟨rfl, rfl⟩, fun _ _ => rfl, fun _ => rfl, fun _ _ => rfl, fun _ _ => ⟨rfl, rfl⟩,
    fun _ => ⟨rfl, rfl⟩⟩

theorem concurrent_eq_sequential_sample : ∃ (schedule : List Move) (n : Summary),
    (sampleLoader.runUnder 0 schedule ["a", "b"] []).1 = some (.ok n) ∧
    (sampleLoader.run ["a", "b"] []).1 = .ok n ∧ n.files = 2 ∧ n.records = 4 := by
  obtain ⟨per, -, hrun, hfiles, hrecords, hall, hgo⟩ :=
    concurrent_eq_sequential (sampleLoader_steady ["a", "b"]) 0 []
  obtain ⟨-, schedule, out, hout⟩ := hgo [] (.start 0 ["a", "b"]) rfl
  obtain ⟨rfl, -⟩ := hall _ out hout
  exact ⟨_, _, hout, hrun, hfiles, hrecords⟩

end DumpImport.Load
