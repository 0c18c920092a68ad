import DumpImport.Proofs.KeyService.Answers

/-! One call to the key service, however many attempts it takes: the last answer decides what it
returns, and only a result changes the keys opened so far. -/

namespace DumpImport.KeyService

/-- One request with its reply, and the keys opened before it was sent. -/
structure Exchange where
  request : Web.Request
  reply : Web.Reply
  known : Cache

/-- The exchanges are kept last first. -/
structure Session where
  cache : Cache
  drawn : Nat
  sent : Nat
  exchanges : List Exchange

structure Surroundings where
  base : String
  replies : Nat → Web.Reply
  correlations : Nat → String
  retry : Option Retry.Policy

instance : MonadStateOf Cache (StateM Session) where
  get s := (s.cache, s)
  set c s := ((), { s with cache := c })
  modifyGet f s := ((f s.cache).1, { s with cache := (f s.cache).2 })

namespace Surroundings

def remote (x : Surroundings) : Remote (StateM Session) where
  base := x.base
  send q s := (x.replies s.sent,
    { s with sent := s.sent + 1, exchanges := ⟨q, x.replies s.sent, s.cache⟩ :: s.exchanges })
  correlation s := (x.correlations s.drawn, { s with drawn := s.drawn + 1 })

def service (x : Surroundings) : Service (StateM Session) :=
  match x.retry with
  | none => x.remote.service
  | some p => x.remote.service.retrying p fun _ _ => pure ()

end Surroundings

structure Purpose (α : Type) where
  operation : String
  request : (correlation : String) → Except Web.Url.Error Web.Request
  reads : Web.Reply → Option α
  refuses : Web.Reply → Prop
  keeps : α → Cache → Cache

def Purpose.issue (base : String) : Purpose DataKey where
  operation := issuing
  request := Remote.issueRequest base
  reads := issued?
  refuses _ := False
  keeps _ c := c

def Purpose.open (base keyId wrapped : String) : Purpose String where
  operation := decrypting
  request := Remote.decryptRequest base keyId wrapped
  reads := opened?
  refuses := Refused
  keeps plaintext c := c.insert wrapped keyId plaintext

variable {α : Type}

structure Purpose.Done (p : Purpose α) (c : Cache) (es : List Exchange) (r : Except Error α) (c' : Cache) :
    Prop where
  ok : ∀ a, r = .ok a ↔ ∃ e, es.head? = some e ∧ p.reads e.reply = some a
  permanent : (∃ e, r = .error e ∧ e.isRetryable = false) ↔ ∃ e, es.head? = some e ∧ p.refuses e.reply
  earlier : ∀ e ∈ es.tail, p.reads e.reply = none ∧ ¬ p.refuses e.reply
  asked : ∀ e ∈ es, (∃ correlation, p.request correlation = .ok e.request) ∧ e.known = c
  unsent : es = [] → ∃ correlation e, r = .error e ∧
    Remote.sendable p.operation correlation (p.request correlation) = .error e
  stored : ∀ a, r = .ok a → c' = p.keeps a c
  kept : ∀ e, r = .error e → c' = c

namespace Purpose.Done

variable {p : Purpose α} {c c' c'' : Cache} {es es' : List Exchange} {r : Except Error α} {e : Error}

lemma indecisive (h : p.Done c es (.error e) c') (he : e.isRetryable = true) :
    ∀ x ∈ es, p.reads x.reply = none ∧ ¬ p.refuses x.reply := by
  cases es with
  | nil => exact List.forall_mem_nil _
  | cons x es =>
    refine List.forall_mem_cons.mpr ⟨⟨?_, fun hp => ?_⟩, h.earlier⟩
    · rw [Option.eq_none_iff_forall_ne_some]
      intro a ha
      cases (h.ok a).mpr ⟨x, rfl, ha⟩
    · obtain ⟨e', he', hf⟩ := h.permanent.mpr ⟨x, rfl, hp⟩
      cases he'
      cases he.symm.trans hf

lemma again (h : p.Done c es (.error e) c') (he : e.isRetryable = true) (h' : p.Done c' es' r c'') :
    p.Done c (es' ++ es) r c'' := by
  obtain rfl := h.kept e rfl
  have hold := h.indecisive he
  -- an attempt for which no request can be sent leaves the exchanges as they were
  cases es' with
  | nil =>
    refine ⟨fun a => ?_, ?_, fun x hx => hold x (List.mem_of_mem_tail hx), h.asked,
      fun _ => h'.unsent rfl, h'.stored, h'.kept⟩
    · rw [h'.ok a]
      refine iff_of_false (by simp) ?_
      rintro ⟨x, hx, ha⟩
      cases (hold x (List.mem_of_mem_head? hx)).1.symm.trans ha
    · rw [h'.permanent]
      refine iff_of_false (by simp) ?_
      rintro ⟨x, hx, hp⟩
      exact (hold x (List.mem_of_mem_head? hx)).2 hp
  | cons y es' =>
    exact ⟨h'.ok, h'.permanent, List.forall_mem_append.mpr ⟨h'.earlier, hold⟩,
      List.forall_mem_append.mpr ⟨h'.asked, h.asked⟩, by rintro ⟨⟩, h'.stored, h'.kept⟩

lemma readings (h : p.Done c es r c') : es.filterMap (fun x => p.reads x.reply) = r.toOption.toList := by
  cases es with
  | nil =>
    cases r with
    | error e => rfl
    | ok a =>
      obtain ⟨x, hx, -⟩ := (h.ok a).mp rfl
      cases hx
  | cons x es =>
    have hrest : es.filterMap (fun x => p.reads x.reply) = [] :=
      List.filterMap_eq_nil_iff.mpr fun y hy => (h.earlier y hy).1
    have hx (a : α) : r = .ok a ↔ p.reads x.reply = some a := by
      rw [h.ok a]
      simp
    cases r with
    | ok a => simp [(hx a).mp rfl, hrest, Except.toOption]
    | error e =>
      have hn : p.reads x.reply = none := by
        rw [Option.eq_none_iff_forall_ne_some]
        intro a ha
        cases (hx a).mpr ha
      simp [hn, hrest, Except.toOption]

end Purpose.Done

section Runs

variable {β : Type} (s : Session)

def Fulfils (p : Purpose α) (s : Session) (out : Except Error α × Session) : Prop :=
  ∃ es, out.2.exchanges = es ++ s.exchanges ∧ p.Done s.cache es out.1 out.2.cache

section Retried

variable {s} (policy : Retry.Policy) {attempt : StateM Session (Except Error α)} {n : UInt32}
  (hn : n < policy.maxAttempts)

def attempted (attempt : StateM Session (Except Error α)) : StateM Session (Except Error α) :=
  policy.attempts (fun _ => pure ()) (outcome <$> attempt) n hn

lemma attempted_last (hlast : policy.maxAttempts ≤ n + 1) : attempted policy hn attempt s = attempt s := by
  rw [attempted, Retry.Policy.attempts, bind_apply, map_apply]
  simp only [dif_pos hlast]
  rcases attempt s with ⟨e | a, s'⟩
  · rw [outcome]
    split_ifs <;> rfl
  · rfl

lemma attempted_final (h : ∀ e, (attempt s).1 = .error e → e.isRetryable = false) :
    attempted policy hn attempt s = attempt s := by
  rw [attempted, Retry.Policy.attempts, bind_apply, map_apply]
  rcases ha : attempt s with ⟨e | a, s'⟩
  · rw [ha] at h
    rw [outcome, h e rfl]
    rfl
  · rfl

lemma attempted_again {e : Error} (h : (attempt s).1 = .error e) (he : e.isRetryable = true)
    (hnext : n + 1 < policy.maxAttempts) :
    attempted policy hn attempt s = attempted policy hnext attempt (attempt s).2 := by
  rw [attempted, Retry.Policy.attempts, bind_apply, map_apply, h, outcome, he]
  simp only [dif_neg (UInt32.not_le.mpr hnext), if_true]
  rfl

lemma attempted_induction {motive : Session → Except Error α × Session → Prop} {c : Cache}
    (one : ∀ s, s.cache = c → motive s (attempt s))
    (kept : ∀ s e, s.cache = c → (attempt s).1 = .error e → (attempt s).2.cache = c)
    (again : ∀ s e out, s.cache = c → (attempt s).1 = .error e → e.isRetryable = true →
      motive (attempt s).2 out → motive s out)
    (hs : s.cache = c) : motive s (attempted policy hn attempt s) := by
  induction hk : policy.maxAttempts.toNat - n.toNat generalizing n s with
  | zero => exact absurd (UInt32.lt_iff_toNat_lt.mp hn) (by omega)
  | succ left ih =>
    by_cases hlast : policy.maxAttempts ≤ n + 1
    · rw [attempted_last policy hn hlast]
      exact one s hs
    by_cases hf : ∀ e, (attempt s).1 = .error e → e.isRetryable = false
    · rw [attempted_final policy hn hf]
      exact one s hs
    · simp only [not_forall, Bool.not_eq_false] at hf
      obtain ⟨e, he, hr⟩ := hf
      have hleft : policy.maxAttempts.toNat - (n + 1).toNat = left := by
        rw [Retry.Policy.toNat_succ hn]
        omega
      rw [attempted_again policy hn he hr (UInt32.not_le.mp hlast)]
      exact again s e _ hs he hr (ih (UInt32.not_le.mp hlast) (kept s e hs he) hleft)

lemma fulfils_attempted {p : Purpose α} {c : Cache} (h : ∀ s, s.cache = c → Fulfils p s (attempt s))
    (hs : s.cache = c) : Fulfils p s (attempted policy hn attempt s) := by
  -- a failure that may pass keeps the keys at `c`, so the next attempt is one of those in `h`
  refine attempted_induction policy hn h (fun s e hs he => ?_) (fun s e out hs he hr hout => ?_) hs
  · obtain ⟨es, -, hd⟩ := h s hs
    exact (hd.kept e he).trans hs
  · obtain ⟨es, hes, hd⟩ := h s hs
    rw [he] at hd
    obtain ⟨es', hes', hd'⟩ := hout
    exact ⟨es' ++ es, by rw [hes', hes, List.append_assoc], hd.again hr hd'⟩

end Retried

section Calls

variable (x : Surroundings) {s}

lemma ask_unsent {operation : String} {request : String → Except Web.Url.Error Web.Request}
    {answer : String → Nat → Bytes → Except Error α} {e : Error}
    (h : Remote.sendable operation (x.correlations s.drawn) (request (x.correlations s.drawn)) = .error e) :
    x.remote.ask operation request answer s = (.error e, { s with drawn := s.drawn + 1 }) := by
  rw [Remote.ask, bind_apply]
  simp only [Surroundings.remote, h]
  rfl

lemma ask_sent {operation : String} {request : String → Except Web.Url.Error Web.Request}
    {answer : String → Nat → Bytes → Except Error α} {q : Web.Request}
    (h : Remote.sendable operation (x.correlations s.drawn) (request (x.correlations s.drawn)) = .ok q) :
    x.remote.ask operation request answer s =
      (Remote.settle operation (x.correlations s.drawn) q.url (answer (x.correlations s.drawn))
        (x.replies s.sent),
      ⟨s.cache, s.drawn + 1, s.sent + 1, ⟨q, x.replies s.sent, s.cache⟩ :: s.exchanges⟩) := by
  rw [Remote.ask, bind_apply]
  simp only [Surroundings.remote, h]
  rfl

def Purpose.unkept (p : Purpose α) : Purpose α := { p with keeps := fun _ c => c }

lemma fulfils_ask {p : Purpose α} {answer : String → Nat → Bytes → Except Error α}
    (hu : Understands answer p.reads p.refuses) :
    Fulfils p.unkept s (x.remote.ask p.operation p.request answer s) := by
  cases hs : Remote.sendable p.operation (x.correlations s.drawn) (p.request (x.correlations s.drawn)) with
  | error e =>
    rw [ask_unsent x hs]
    refine ⟨[], rfl,
      ⟨by simp, ?_, List.forall_mem_nil _, List.forall_mem_nil _, fun _ => ⟨_, e, rfl, hs⟩, by simp,
      fun _ _ => rfl⟩⟩
    refine iff_of_false ?_ (by simp)
    rintro ⟨e', he, hr⟩
    cases he
    cases (sendable_retryable hs).symm.trans hr
  | ok q =>
    rw [ask_sent x hs]
    refine ⟨[_], rfl,
      ⟨fun a => ?_, ?_, List.forall_mem_nil _, ?_, (by rintro ⟨⟩), fun _ _ => rfl, fun _ _ => rfl⟩⟩
    · rw [hu.ok]
      simp [Purpose.unkept]
    · rw [hu.permanent]
      simp [Purpose.unkept]
    · exact List.forall_mem_singleton.mpr ⟨⟨_, sendable_eq_ok hs⟩, rfl⟩

def Purpose.keeping (p : Purpose α) (out : Except Error α × Session) : Except Error α × Session :=
  match out.1 with
  | .ok a => (.ok a, { out.2 with cache := p.keeps a out.2.cache })
  | .error e => (.error e, out.2)

lemma Purpose.drawn_keeping (p : Purpose α) (out : Except Error α × Session) :
    (p.keeping out).2.drawn = out.2.drawn := by
  rcases out with ⟨e | a, s⟩ <;> rfl

lemma Purpose.exchanges_keeping (p : Purpose α) (out : Except Error α × Session) :
    (p.keeping out).2.exchanges = out.2.exchanges := by
  rcases out with ⟨e | a, s⟩ <;> rfl

lemma Fulfils.keeping {p : Purpose α} {out : Except Error α × Session} (h : Fulfils p.unkept s out) :
    Fulfils p s (p.keeping out) := by
  obtain ⟨es, hes, hd⟩ := h
  rcases out with ⟨e | a, s'⟩
  · exact ⟨es, hes,
      ⟨hd.ok, hd.permanent, hd.earlier, hd.asked, hd.unsent, by simp [Purpose.keeping], hd.kept⟩⟩
  · refine ⟨es, hes, ⟨hd.ok, hd.permanent, hd.earlier, hd.asked, hd.unsent, ?_, by simp [Purpose.keeping]⟩⟩
    rintro _ ⟨⟩
    exact congrArg (p.keeps a) (hd.stored a rfl)

variable {x} {keyId wrapped : String}

lemma service_issue {m : Type → Type} [Monad m] [MonadStateOf Cache m] (r : Remote m) :
    r.service.issue = r.issue := rfl

lemma fulfils_issue : Fulfils (.issue x.base) s (x.service.issue s) := by
  have hone (s : Session) : Fulfils (.issue x.base) s (x.remote.service.issue s) := by
    rw [service_issue, Remote.issue]
    exact fulfils_ask (p := .issue x.base) x understands_issue
  rw [Surroundings.service]
  cases x.retry with
  | none => exact hone s
  | some policy => exact fulfils_attempted policy policy.zero_lt (fun s _ => hone s) rfl

lemma get_cache : (getThe Cache : StateM Session Cache) s = (s.cache, s) := rfl

lemma remote_decrypt_known {plaintext : String} (h : s.cache.get? wrapped keyId = some plaintext) :
    x.remote.service.decrypt keyId wrapped s = (.ok plaintext, s) := by
  simp only [Remote.service, bind_apply, get_cache, h]
  rfl

lemma remote_decrypt_missed (h : s.cache.get? wrapped keyId = none) :
    x.remote.service.decrypt keyId wrapped s =
      (Purpose.open x.base keyId wrapped).keeping (x.remote.decrypt keyId wrapped s) := by
  simp only [Remote.service, bind_apply, get_cache, h]
  rcases x.remote.decrypt keyId wrapped s with ⟨e | a, s'⟩ <;> rfl

lemma decrypt_known {plaintext : String} (h : s.cache.get? wrapped keyId = some plaintext) :
    x.service.decrypt keyId wrapped s = (.ok plaintext, s) := by
  have hone := remote_decrypt_known (x := x) h
  rw [Surroundings.service]
  cases x.retry with
  | none => exact hone
  | some policy => exact (attempted_final policy policy.zero_lt (by simp [hone])).trans hone

lemma fulfils_remote_decrypt (h : s.cache.get? wrapped keyId = none) :
    Fulfils (.open x.base keyId wrapped) s (x.remote.service.decrypt keyId wrapped s) := by
  rw [remote_decrypt_missed h, Remote.decrypt]
  exact (fulfils_ask (p := .open x.base keyId wrapped) x (understands_decrypt keyId)).keeping

lemma fulfils_decrypt (h : s.cache.get? wrapped keyId = none) :
    Fulfils (.open x.base keyId wrapped) s (x.service.decrypt keyId wrapped s) := by
  rw [Surroundings.service]
  cases x.retry with
  | none => exact fulfils_remote_decrypt h
  | some policy =>
    exact fulfils_attempted policy policy.zero_lt (fun s' hs => fulfils_remote_decrypt (hs ▸ h)) rfl

lemma clear_service : x.service.clear s = ((), { s with cache := .empty }) := by
  rw [Surroundings.service]
  cases x.retry <;> rfl

end Calls

end Runs

end DumpImport.KeyService
