import DumpImport.Proofs.KeyService.History
import DumpImport.Proofs.Retry.Law

namespace DumpImport.KeyService

open Retry

inductive Event where
  | asked (c : Call)
  | waited (operation : String) (d : Time.Span)

structure Script where
  issued : ℕ → Except Error DataKey
  opened : ℕ → Except Error String

def Script.service (x : Script) : Service (StateM (Trial Event)) where
  issue := scripted (.asked .issue) x.issued
  decrypt keyId wrapped := scripted (.asked (.decrypt keyId wrapped)) x.opened
  clear := scripted (.asked .clear) fun _ => ()

def Script.retrying (x : Script) (p : Policy) : Service (StateM (Trial Event)) :=
  x.service.retrying p fun operation => noted (.waited operation)

section Calls

variable {m : Type → Type} [Monad m]

def Service.call (s : Service m) : Call → m Result
  | .issue => .issued <$> s.issue
  | .decrypt keyId wrapped => .opened <$> s.decrypt keyId wrapped
  | .clear => (fun _ => .cleared) <$> s.clear

def Service.calls (s : Service m) : List Call → m (List Result)
  | [] => return []
  | c :: cs => do
    let r ← s.call c
    return r :: (← s.calls cs)

end Calls

def inTurn (p : Policy) (operation : String) (c : Call) (k : ℕ) : List Event :=
  rounds p (.asked c) (.waited operation) k ++ [.asked c]

def Asks {α : Type} (p : Policy) (answers : ℕ → Except Error α) (k : ℕ) : Prop :=
  ((k + 1 : ℕ) : ℕ∞) = min (firstFinal (fun j => outcome (answers j)) + 1) p.maxAttempts.toNat

/-- What a call comes to when `i` questions were asked before: how many it asks, its result, and
what is done. -/
inductive Settles (p : Policy) (x : Script) (i : ℕ) : Call → ℕ → Result → List Event → Prop where
  | issue {k} (asks : Asks p (fun j => x.issued (i + j)) k) :
      Settles p x i .issue (k + 1) (.issued (x.issued (i + k))) (inTurn p issuing .issue k)
  | decrypt {keyId wrapped k} (asks : Asks p (fun j => x.opened (i + j)) k) :
      Settles p x i (.decrypt keyId wrapped) (k + 1) (.opened (x.opened (i + k)))
        (inTurn p decrypting (.decrypt keyId wrapped) k)
  | clear : Settles p x i .clear 1 .cleared [.asked .clear]

inductive Serves (p : Policy) (x : Script) : ℕ → List Call → ℕ → List Result → List Event → Prop where
  | nil {i} : Serves p x i [] i [] []
  | cons {i c n r es cs j rs fs} (first : Settles p x i c n r es) (rest : Serves p x (i + n) cs j rs fs) :
      Serves p x i (c :: cs) j (r :: rs) (es ++ fs)

lemma result_outcome {α : Type} (r : Except Error α) : (outcome r).result = r := by
  cases r with
  | ok a => rfl
  | error e =>
    rw [outcome]
    split_ifs <;> rfl

lemma outcome_scripted {α : Type} (c : Call) (answers : ℕ → Except Error α) :
    outcome <$> scripted (Event.asked c) answers = scripted (.asked c) fun i => outcome (answers i) := rfl

lemma retried {α : Type} (p : Policy) (operation : String) (c : Call) (answers : ℕ → Except Error α)
    (t : Trial Event) : ∃ k, Asks p (fun j => answers (t.made + j)) k ∧
      p.run (noted (.waited operation)) (outcome <$> scripted (.asked c) answers) t =
        (answers (t.made + k), ⟨t.made + (k + 1), t.done ++ inTurn p operation c k⟩) := by
  obtain ⟨k, hk⟩ := exists_endsAt p fun j => outcome (answers (t.made + j))
  have hrun := run_scripted (Event.asked c) (.waited operation) (fun i => outcome (answers i)) hk
  rw [result_outcome] at hrun
  rw [outcome_scripted]
  exact ⟨k, hk.count, hrun⟩

section Retrying

variable (p : Policy) (x : Script)

lemma retrying_issue : (x.retrying p).issue =
    p.run (noted (.waited issuing)) (outcome <$> scripted (.asked .issue) x.issued) := rfl

lemma retrying_decrypt (keyId wrapped : String) : (x.retrying p).decrypt keyId wrapped =
    p.run (noted (.waited decrypting))
    (outcome <$> scripted (.asked (.decrypt keyId wrapped)) x.opened) := rfl

lemma settles_call (c : Call) (t : Trial Event) : ∃ n r es, Settles p x t.made c n r es ∧
    (x.retrying p).call c t = (r, ⟨t.made + n, t.done ++ es⟩) := by
  cases c with
  | issue =>
    obtain ⟨k, hk, hrun⟩ := retried p issuing .issue x.issued t
    exact ⟨_, _, _, .issue hk, by rw [Service.call, map_apply, retrying_issue, hrun]⟩
  | decrypt keyId wrapped =>
    obtain ⟨k, hk, hrun⟩ := retried p decrypting (.decrypt keyId wrapped) x.opened t
    exact ⟨_, _, _, .decrypt hk, by rw [Service.call, map_apply, retrying_decrypt, hrun]⟩
  | clear => exact ⟨1, .cleared, _, .clear, rfl⟩

lemma serves_calls (cs : List Call) (t : Trial Event) : ∃ j rs es,
    Serves p x t.made cs j rs es ∧ (x.retrying p).calls cs t = (rs, ⟨j, t.done ++ es⟩) := by
  induction cs generalizing t with
  | nil => exact ⟨t.made, [], [], .nil, by rw [List.append_nil]; rfl⟩
  | cons c cs ih =>
    obtain ⟨n, r, es, hfirst, hc⟩ := settles_call p x c t
    obtain ⟨j, rs, fs, hrest, hcs⟩ := ih ⟨t.made + n, t.done ++ es⟩
    refine ⟨j, r :: rs, es ++ fs, .cons hfirst hrest, ?_⟩
    rw [Service.calls, bind_apply, hc, bind_apply, hcs, List.append_assoc]
    rfl

end Retrying

lemma Asks.eq_of_isFinal {α : Type} {p : Policy} {answers : ℕ → Except Error α}
    {j k : ℕ} (h : Asks p answers k) (hf : (outcome (answers j)).IsFinal) (hj : j ≤ k) : j = k := by
  have hk : ((k + 1 : ℕ) : ℕ∞) ≤ firstFinal (fun j => outcome (answers j)) + 1 := h.trans_le (min_le_left _ _)
  have hfirst : firstFinal (fun j => outcome (answers j)) ≤ j := iInf₂_le j hf
  have hkj : ((k + 1 : ℕ) : ℕ∞) ≤ (j + 1 : ℕ) := hk.trans (add_le_add_left hfirst 1)
  have hle := Nat.cast_le.mp hkj
  omega

/-- The first final outcome ends the attempts, or the last one allowed does, with a wait between any
two of them that goes by the number of the first; and so in each call to a service that tries again,
whatever was called before. -/
theorem retried_until_final :
    (∀ (maxAttempts : UInt32) (initial : Time.Span) (multiplier : UInt32) (α ε : Type) (o : ℕ → Outcome α ε),
      let p := Policy.of maxAttempts initial multiplier
      ∃ k, ((k + 1 : ℕ) : ℕ∞) = min (firstFinal o + 1) (max maxAttempts.toNat 1 : ℕ) ∧
        p.run (noted .waited) (scripted .tried o) ⟨0, []⟩ =
          ((o k).result, ⟨k + 1, rounds p .tried .waited k ++ [Effect.tried]⟩) ∧
        ∀ i ≤ k, (UInt32.ofNat i).toNat = i ∧ ∃ h, p.run (noted .waited) (scripted .tried o) ⟨0, []⟩ =
          p.attempts (noted .waited) (scripted .tried o) (.ofNat i) h ⟨i, rounds p Effect.tried .waited i⟩) ∧
    (∀ (p : Policy) (n : UInt32), n < p.maxAttempts → (n + 1).toNat = n.toNat + 1) ∧
    ∀ (p : Policy) (x : Script),
      (∀ cs, ∃ j rs es, (x.retrying p).calls cs ⟨0, []⟩ = (rs, ⟨j, es⟩) ∧ Serves p x 0 cs j rs es) ∧
      ∀ i keyId wrapped n r es, Settles p x i (.decrypt keyId wrapped) n r es →
        ∀ j < n, ∀ id correlation status,
          x.opened (i + j) = .error (.decryptionFailed id correlation status) → j + 1 = n := by
  refine ⟨fun maxAttempts initial multiplier α ε o => ?_, fun p n => Policy.toNat_succ,
    fun p x => ⟨fun cs => ?_, ?_⟩⟩
  · intro p
    obtain ⟨k, hk⟩ := exists_endsAt p o
    have hk' : EndsAt p (fun i => o ((Trial.mk 0 ([] : List Effect)).made + i)) k := by
      simpa only [Nat.zero_add] using hk
    have hreaches {i : ℕ} (hi : i ≤ k) := run_reaches Effect.tried .waited o hk' hi
    have hrun := run_scripted Effect.tried .waited o hk'
    simp only [Nat.zero_add, List.nil_append] at hrun hreaches
    refine ⟨k, ?_, hrun, fun i hi => ⟨?_, _, hreaches hi⟩⟩
    · rw [hk.count, Policy.maxAttempts_of]
    · exact UInt32.toNat_ofNat_of_lt' ((hi.trans_lt hk.allowed).trans p.maxAttempts.toNat_lt)
  · obtain ⟨j, rs, es, hserves, hrun⟩ := serves_calls p x cs ⟨0, []⟩
    exact ⟨j, rs, es, hrun, hserves⟩
  · intro i keyId wrapped n r es hs j hj id correlation status hx
    cases hs with
    | decrypt asks =>
      have hfinal : (outcome (x.opened (i + j))).IsFinal := by
        rw [hx]
        exact trivial
      rw [asks.eq_of_isFinal hfinal (Nat.le_of_lt_succ hj)]

def refusing : Script :=
  ⟨fun _ => .error (.unavailable "" "" ""), fun _ => .error (.decryptionFailed "" "" 400)⟩

theorem retried_until_final_refused :
    ((refusing.retrying .standard).calls [.decrypt "id" "key"] ⟨0, []⟩).2.made = 1 ∧
    (0 + 1 : UInt32).toNat = 1 := by
  obtain ⟨-, hsucc, hcalls⟩ := retried_until_final
  obtain ⟨hserves, hlast⟩ := hcalls .standard refusing
  obtain ⟨j, rs, es, hrun, hs⟩ := hserves [.decrypt "id" "key"]
  refine ⟨?_, hsucc .standard 0 (Policy.zero_lt _)⟩
  rw [hrun]
  cases hs with
  | @cons _ _ n _ _ _ _ _ _ first rest =>
    have hn : 0 < n := by
      cases first
      exact Nat.succ_pos _
    have hone := hlast 0 _ _ _ _ _ first 0 hn _ _ _ rfl
    cases rest
    exact (Nat.zero_add n).trans hone.symm

end DumpImport.KeyService
