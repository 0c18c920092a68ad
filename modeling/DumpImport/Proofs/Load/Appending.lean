import DumpImport.Load.Appending
import DumpImport.Proofs.Load.Lines

namespace DumpImport.Load.Appending

open Record

inductive Moves (s : State) : Move → State → Prop where
  | prepare {i r queue} (writer : s.writers[i]? = some ⟨r :: queue, none⟩) (other : s.isHolder i = false) :
      Moves s (.prepare i) { s with writers := s.writers.set i ⟨queue, some (Bytes.ofText (storedLine r))⟩ }
  | take {i queue line} (writer : s.writers[i]? = some ⟨queue, some line⟩) (free : s.lock = none) :
      Moves s (.take i) { s with writers := s.writers.set i ⟨queue, none⟩, lock := some ⟨i, line⟩ }
  | hand {n i rest} (held : s.lock = some ⟨i, rest⟩) :
      Moves s (.hand n) { s with lock := some ⟨i, rest.drop n⟩, buffer := s.buffer ++ rest.take n }
  | release {i} (held : s.lock = some ⟨i, []⟩) : Moves s .release { s with lock := none }
  | spill {n} : Moves s (.spill n) { s with file := s.file ++ s.buffer.take n, buffer := s.buffer.drop n }
  | flush (free : s.lock = none) : Moves s .flush { s with file := s.file ++ s.buffer, buffer := [] }

variable {s s' : State} {a : Move} {as bs : List Move}

section Inversion

lemma moves_of_move (h : s.move a = some s') : Moves s a s' := by
  cases a with
  | prepare i =>
    simp only [State.move] at h
    split at h
    · rename_i r queue hw
      split_ifs at h with hi
      cases h
      exact .prepare hw (Bool.not_eq_true _ ▸ hi)
    · cases h
  | take i =>
    simp only [State.move] at h
    split at h
    · rename_i queue line hl hw
      cases h
      exact .take hw hl
    · cases h
  | hand n =>
    obtain ⟨⟨i, rest⟩, hl, rfl⟩ := Option.map_eq_some_iff.mp h
    exact .hand hl
  | release =>
    simp only [State.move] at h
    split at h
    · rename_i i hl
      cases h
      exact .release hl
    · cases h
  | spill n =>
    cases h
    exact .spill
  | flush =>
    simp only [State.move] at h
    split_ifs at h with hl
    cases h
    exact .flush (Option.not_isSome_iff_eq_none.mp hl)

lemma follow_cons (h : s.follow (a :: as) = some s') : ∃ s₁, s.move a = some s₁ ∧ s₁.follow as = some s' :=
  Option.bind_eq_some_iff.mp h

end Inversion

section Order

inductive Stage (records done : List Mapped) : Writer → Prop where
  | idle {queue} (records_eq : records = done ++ queue) : Stage records done ⟨queue, none⟩
  | ready {r queue line} (records_eq : records = done ++ r :: queue)
      (line_eq : line = Bytes.ofText (storedLine r)) :
      Stage records done ⟨queue, some line⟩

def atHand (s : State) : Bytes := s.lock.elim [] Held.rest

/-- What was handed on, and what whoever has the lock will hand on, are the lines of `log`. -/
structure Sound (queues : List (List Mapped)) (log : List (Nat × Mapped)) (s : State) : Prop where
  length : s.writers.length = queues.length
  labels : ∀ e ∈ log, e.1 < queues.length
  stages : ∀ i q w, queues[i]? = some q → s.writers[i]? = some w → Stage q (writtenBy i log) w
  lines : s.file ++ (s.buffer ++ atHand s) = log.flatMap fun e => Bytes.ofText (storedLine e.2)

variable {queues : List (List Mapped)} {log log' : List (Nat × Mapped)}

lemma Sound.start (queues : List (List Mapped)) : Sound queues [] (.start queues) := by
  refine ⟨List.length_map .., List.forall_mem_nil _, ?_, rfl⟩
  intro i q w hq hw
  simp only [State.start, List.getElem?_map, hq, Option.map_some, Option.some.injEq] at hw
  subst hw
  exact .idle rfl

namespace Sound

lemma stage (h : Sound queues log s) {i : Nat} {w : Writer} (hw : s.writers[i]? = some w) :
    ∃ q, queues[i]? = some q ∧ Stage q (writtenBy i log) w := by
  obtain ⟨hi, -⟩ := List.getElem?_eq_some_iff.mp hw
  rw [h.length] at hi
  exact ⟨queues[i], List.getElem?_eq_getElem hi, h.stages i _ w (List.getElem?_eq_getElem hi) hw⟩

lemma stages_set (h : Sound queues log s) {i : Nat} {w w' : Writer} {q : List Mapped}
    (hw : s.writers[i]? = some w) (hq : queues[i]? = some q) (hs : Stage q (writtenBy i log') w')
    (hne : ∀ j, j ≠ i → writtenBy j log' = writtenBy j log) :
    ∀ j p u, queues[j]? = some p → (s.writers.set i w')[j]? = some u → Stage p (writtenBy j log') u := by
  apply forall_getElem?_set (Q := fun j p u => Stage p (writtenBy j log') u) h.stages
    (List.getElem?_eq_some_iff.mp hw).1
  · intro p hp
    cases hq.symm.trans hp
    exact hs
  · intro j p u hij hu
    rwa [hne j hij]

lemma prepare (h : Sound queues log s) {i : Nat} {r : Mapped} {queue : List Mapped}
    (hw : s.writers[i]? = some ⟨r :: queue, none⟩) :
    Sound queues log { s with writers := s.writers.set i ⟨queue, some (Bytes.ofText (storedLine r))⟩ } := by
  obtain ⟨q, hq, hs⟩ := h.stage hw
  refine ⟨(List.length_set ..).trans h.length, h.labels, ?_, h.lines⟩
  cases hs with
  | idle records_eq => exact h.stages_set hw hq (.ready records_eq rfl) fun _ _ => rfl

lemma take (h : Sound queues log s) {i : Nat} {queue : List Mapped} {line : Bytes}
    (hw : s.writers[i]? = some ⟨queue, some line⟩) (hl : s.lock = none) :
    ∃ r, Sound queues (log ++ [(i, r)])
      { s with writers := s.writers.set i ⟨queue, none⟩, lock := some ⟨i, line⟩ } := by
  obtain ⟨q, hq, hs⟩ := h.stage hw
  cases hs with
  | @ready r _ _ records_eq line_eq =>
    refine ⟨r, (List.length_set ..).trans h.length, ?_, ?_, ?_⟩
    · intro e he
      rcases List.mem_append.mp he with he | he
      · exact h.labels e he
      · rw [List.mem_singleton.mp he]
        exact (List.getElem?_eq_some_iff.mp hq).1
    · apply h.stages_set hw hq
      · have hself : writtenBy i [(i, r)] = [r] := writtenBy_self i [r]
        apply Stage.idle
        rw [writtenBy_append, hself, records_eq, List.append_assoc, List.singleton_append]
      · intro j hij
        have hother : writtenBy j [(i, r)] = [] := writtenBy_ne hij [r]
        rw [writtenBy_append, hother, List.append_nil]
    · have hlines := h.lines
      rw [atHand, hl, Option.elim_none, List.append_nil] at hlines
      rw [List.flatMap_append, ← hlines, List.flatMap_singleton, atHand,
        Option.elim_some, line_eq, List.append_assoc]

lemma of_lines (h : Sound queues log s) {lock : Option Held} {buffer file : Bytes}
    (hl : file ++ (buffer ++ lock.elim [] Held.rest) = s.file ++ (s.buffer ++ atHand s)) :
    Sound queues log ⟨s.writers, lock, buffer, file⟩ :=
  ⟨h.length, h.labels, h.stages, hl.trans h.lines⟩

lemma move (h : Sound queues log s) (hm : Moves s a s') : ∃ log', Sound queues log' s' := by
  cases hm with
  | prepare writer _ => exact ⟨log, h.prepare writer⟩
  | take writer free =>
    obtain ⟨r, hr⟩ := h.take writer free
    exact ⟨_, hr⟩
  | hand held =>
    refine ⟨log, h.of_lines ?_⟩
    rw [atHand, held, Option.elim_some, Option.elim_some, List.append_assoc, List.take_append_drop]
  | release held =>
    refine ⟨log, h.of_lines ?_⟩
    rw [atHand, held, Option.elim_some, Option.elim_none]
  | spill =>
    refine ⟨log, h.of_lines ?_⟩
    rw [← atHand, List.append_assoc, ← List.append_assoc (List.take _ _), List.take_append_drop]
  | flush free =>
    refine ⟨log, h.of_lines ?_⟩
    rw [← atHand, List.append_assoc, List.nil_append]

lemma follow (h : Sound queues log s) (hf : s.follow as = some s') : ∃ log', Sound queues log' s' := by
  induction as generalizing log s with
  | nil =>
    cases hf
    exact ⟨log, h⟩
  | cons a as ih =>
    obtain ⟨s₁, hm, hf⟩ := follow_cons hf
    obtain ⟨log₁, h₁⟩ := h.move (moves_of_move hm)
    exact ih h₁ hf

end Sound

end Order

section Done

structure IsDone (s : State) : Prop where
  lock : s.lock = none
  writers : ∀ w ∈ s.writers, w = ⟨[], none⟩

variable {queues : List (List Mapped)} {log : List (Nat × Mapped)}

lemma Sound.writtenBy_eq (h : Sound queues log s) (hd : IsDone s) {i : Nat} {q : List Mapped}
    (hq : queues[i]? = some q) : writtenBy i log = q := by
  obtain ⟨hi, -⟩ := List.getElem?_eq_some_iff.mp hq
  rw [← h.length] at hi
  have hw := hd.writers _ (List.getElem_mem hi)
  have hs := h.stages i q _ hq (List.getElem?_eq_getElem hi)
  rw [hw] at hs
  cases hs with
  | idle records_eq => rw [records_eq, List.append_nil]

lemma Sound.mem_queue (h : Sound queues log s) (hd : IsDone s) {e : Nat × Mapped} (he : e ∈ log) :
    ∃ q ∈ queues, e.2 ∈ q := by
  have hi := h.labels e he
  refine ⟨queues[e.1], List.getElem_mem hi, ?_⟩
  rw [← h.writtenBy_eq hd (List.getElem?_eq_getElem hi)]
  exact List.mem_map.mpr ⟨e, List.mem_filter.mpr ⟨he, decide_eq_true rfl⟩, rfl⟩

lemma Sound.flush (h : Sound queues log s) (hd : IsDone s) : ∃ s', s.move .flush = some s' ∧
    s'.file = log.flatMap fun e => Bytes.ofText (storedLine e.2) := by
  refine ⟨{ s with file := s.file ++ s.buffer, buffer := [] }, ?_, ?_⟩
  · rw [State.move, hd.lock]
    rfl
  · have hl := h.lines
    rwa [atHand, hd.lock, Option.elim_none, List.append_nil] at hl

end Done

section Progress

def workLeft (w : Writer) : Nat := 4 * w.queue.length + w.ready.elim 0 fun _ => 3

def holdLeft (h : Held) : Nat := if h.rest.isEmpty then 1 else 2

/-- At most so many moves lead on. -/
def left (s : State) : Nat := (s.writers.map workLeft).sum + s.lock.elim 0 holdLeft

lemma holdLeft_le (h : Held) : holdLeft h ≤ 2 := by
  rw [holdLeft]
  split_ifs <;> omega

lemma can_prepare {i : Nat} {r : Mapped} {queue : List Mapped} (hw : s.writers[i]? = some ⟨r :: queue, none⟩)
    (hl : s.lock = none) : ∃ s', s.move (.prepare i) = some s' ∧ left s' < left s := by
  have hfree : s.isHolder i = false := by rw [State.isHolder, hl, Option.any_none]
  refine ⟨{ s with writers := s.writers.set i ⟨queue, some (Bytes.ofText (storedLine r))⟩ }, ?_, ?_⟩
  · simp only [State.move, hw, hfree]
    rfl
  · have hset := sum_map_set workLeft ⟨queue, some (Bytes.ofText (storedLine r))⟩ hw
    have hbefore : workLeft ⟨r :: queue, none⟩ = 4 * (queue.length + 1) := rfl
    have hafter (line : Bytes) : workLeft ⟨queue, some line⟩ = 4 * queue.length + 3 := rfl
    rw [hafter] at hset
    simp only [left]
    omega

lemma can_take {i : Nat} {line : Bytes} {queue : List Mapped} (hw : s.writers[i]? = some ⟨queue, some line⟩)
    (hl : s.lock = none) : ∃ s', s.move (.take i) = some s' ∧ left s' < left s := by
  refine ⟨{ s with writers := s.writers.set i ⟨queue, none⟩, lock := some ⟨i, line⟩ }, ?_, ?_⟩
  · simp only [State.move, hl, hw]
  · have hset := sum_map_set workLeft ⟨queue, none⟩ hw
    have hbefore : workLeft ⟨queue, some line⟩ = 4 * queue.length + 3 := rfl
    have hafter : workLeft ⟨queue, none⟩ = 4 * queue.length := rfl
    have hhold := holdLeft_le ⟨i, line⟩
    simp only [left, hl, Option.elim_none, Option.elim_some]
    omega

lemma exists_writer (hl : s.lock = none) (h : ¬ IsDone s) :
    ∃ (i : Nat) (w : Writer), s.writers[i]? = some w ∧ w ≠ ⟨[], none⟩ := by
  by_contra hall
  refine h ⟨hl, ?_⟩
  intro w hw
  by_contra hne
  obtain ⟨i, hi⟩ := List.mem_iff_getElem?.mp hw
  exact hall ⟨i, w, hi, hne⟩

lemma can_move (h : ¬ IsDone s) : ∃ a s', s.move a = some s' ∧ left s' < left s := by
  cases hl : s.lock with
  | some held =>
    obtain ⟨i, rest⟩ := held
    cases rest with
    | nil =>
      refine ⟨.release, { s with lock := none }, by simp only [State.move, hl], ?_⟩
      simp [left, hl, holdLeft]
    | cons b rest =>
      refine ⟨.hand (b :: rest).length, _, by rw [State.move, hl, Option.map_some], ?_⟩
      simp [left, hl, holdLeft]
  | none =>
    obtain ⟨i, ⟨queue, ready⟩, hw, hne⟩ := exists_writer hl h
    cases ready with
    | some line =>
      obtain ⟨s', hm, hlt⟩ := can_take hw hl
      exact ⟨_, s', hm, hlt⟩
    | none =>
      cases queue with
      | nil => exact absurd rfl hne
      | cons r queue =>
        obtain ⟨s', hm, hlt⟩ := can_prepare hw hl
        exact ⟨_, s', hm, hlt⟩

theorem can_finish (s : State) : ∃ as s', s.follow as = some s' ∧ IsDone s' := by
  induction hn : left s using Nat.strong_induction_on generalizing s with
  | _ n ih =>
    by_cases h : IsDone s
    · exact ⟨[], s, rfl, h⟩
    · obtain ⟨a, s₁, hm, hlt⟩ := can_move h
      obtain ⟨as, s', hf, hd⟩ := ih (left s₁) (hn ▸ hlt) s₁ rfl
      refine ⟨a :: as, s', ?_, hd⟩
      rw [State.follow, hm]
      exact hf

end Progress

end DumpImport.Load.Appending
