import DumpImport.KeyService.Interleaving
import DumpImport.Proofs.KeyService.Answers
import DumpImport.Proofs.Web.Form

namespace DumpImport.KeyService

lemma decryptRequest_injective {base keyId keyId' wrapped wrapped' correlation correlation' : String}
    {q : Web.Request} (h : Remote.decryptRequest base keyId wrapped correlation = .ok q)
    (h' : Remote.decryptRequest base keyId' wrapped' correlation' = .ok q) :
    keyId = keyId' ∧ wrapped = wrapped' := by
  obtain ⟨u, hu, h⟩ := bind_eq_ok.mp h
  obtain ⟨u', hu', h'⟩ := bind_eq_ok.mp h'
  cases hu.symm.trans hu'
  cases h
  simp only [Except.ok.injEq, Web.Request.mk.injEq, true_and] at h'
  have hq := u.addQuery_injective h'.1
  simp only [List.cons.injEq, Prod.mk.injEq, true_and] at hq
  exact ⟨hq.1.symm, h'.2.symm⟩

def Gave (base : String) (es : List (Web.Request × Web.Reply)) (keyId wrapped plaintext : String) : Prop :=
  ∃ q r correlation, (q, r) ∈ es ∧ Remote.decryptRequest base keyId wrapped correlation = .ok q ∧
    opened? r = some plaintext

section Tasks

variable (base : String) (es : List (Web.Request × Web.Reply))

inductive Phase.Backed (keyId wrapped : String) : Phase → Prop where
  | looking : Backed keyId wrapped .looking
  | asking {correlation q} (request : Remote.decryptRequest base keyId wrapped correlation = .ok q) :
      Backed keyId wrapped (.asking correlation q)
  | storing {plaintext} (given : Gave base es keyId wrapped plaintext) :
      Backed keyId wrapped (.storing plaintext)
  | ended {plaintext} (given : Gave base es keyId wrapped plaintext) :
      Backed keyId wrapped (.ended (.ok plaintext))
  | failed {e} : Backed keyId wrapped (.ended (.error e))

inductive Task.Backed : Task → Prop where
  | decrypt {keyId wrapped phase} (backed : Phase.Backed base es keyId wrapped phase) :
      Backed (.decrypt keyId wrapped phase)
  | clear {done} : Backed (.clear done)

def Cache.Backed (c : Cache) : Prop :=
  ∀ keyId wrapped plaintext, c.get? wrapped keyId = some plaintext → Gave base es keyId wrapped plaintext

variable {base es} {es' : List (Web.Request × Web.Reply)} {keyId wrapped plaintext : String} (hes : es ⊆ es')

include hes

lemma Gave.mono (h : Gave base es keyId wrapped plaintext) : Gave base es' keyId wrapped plaintext := by
  obtain ⟨q, r, correlation, hm, hq, hr⟩ := h
  exact ⟨q, r, correlation, hes hm, hq, hr⟩

lemma Phase.Backed.mono {ph : Phase} (h : ph.Backed base es keyId wrapped) :
    ph.Backed base es' keyId wrapped := by
  cases h with
  | looking => exact .looking
  | asking request => exact .asking request
  | storing given => exact .storing (given.mono hes)
  | ended given => exact .ended (given.mono hes)
  | failed => exact .failed

lemma Task.Backed.mono {t : Task} (h : t.Backed base es) : t.Backed base es' := by
  cases h with
  | decrypt backed => exact .decrypt (backed.mono hes)
  | clear => exact .clear

omit hes

variable {c : Cache}

lemma Cache.Backed.insert (h : c.Backed base es) (hg : Gave base es keyId wrapped plaintext) :
    (c.insert wrapped keyId plaintext).Backed base es := by
  intro k w p hp
  by_cases hn : wrapped = w ∧ keyId = k
  · obtain ⟨rfl, rfl⟩ := hn
    rw [Cache.get?_insert_self] at hp
    cases hp
    exact hg
  · rw [Cache.get?_insert_ne c _ _ _ hn] at hp
    exact h k w p hp

lemma Phase.ask_backed (correlation : String) :
    (Phase.ask base correlation keyId wrapped).Backed base es keyId wrapped := by
  rw [Phase.ask]
  split
  · rename_i hq
    exact .asking (sendable_eq_ok hq)
  · exact .failed

lemma Phase.answered_backed {correlation : String} {q : Web.Request} (r : Web.Reply)
    (h : Remote.decryptRequest base keyId wrapped correlation = .ok q) :
    (Phase.answered keyId correlation q r).Backed base ((q, r) :: es) keyId wrapped := by
  rw [Phase.answered]
  cases hs : Remote.settle decrypting correlation q.url (Remote.decryptAnswer keyId correlation) r with
  | error e => exact .failed
  | ok plaintext =>
    have hr := ((understands_decrypt keyId).ok decrypting correlation q.url r plaintext).mp hs
    exact .storing ⟨q, r, correlation, List.mem_cons_self, h, hr⟩

def Task.subject : Task → Option (String × String)
  | .decrypt keyId wrapped _ => some (keyId, wrapped)
  | .clear _ => none

lemma Task.step_backed {t t' : Task} {c' : Cache} {correlation : String} (ht : t.Backed base es)
    (hc : c.Backed base es) (h : t.step base correlation c = some (t', c')) :
    t'.Backed base es ∧ c'.Backed base es ∧ t'.subject = t.subject := by
  cases ht with
  | @decrypt keyId wrapped phase backed =>
    cases backed with
    | looking =>
      rw [Task.step] at h
      split at h
      · rename_i hg
        cases h
        exact ⟨.decrypt (.ended (hc _ _ _ hg)), hc, by simp only [Task.subject]⟩
      · cases h
        exact ⟨.decrypt (Phase.ask_backed correlation), hc, by simp only [Task.subject]⟩
    | storing given =>
      cases h
      exact ⟨.decrypt (.ended given), hc.insert given, by simp only [Task.subject]⟩
    | asking | ended | failed => cases h
  | @clear done =>
    cases done with
    | false =>
      cases h
      refine ⟨.clear, fun k w p hp => ?_, rfl⟩
      rw [Cache.get?_empty] at hp
      cases hp
    | true => cases h

end Tasks

section Runs

variable {base : String} {s s' : State}

structure State.Backed (base : String) (s : State) : Prop where
  tasks : ∀ t ∈ s.tasks, t.Backed base s.exchanges
  cache : s.cache.Backed base s.exchanges

lemma State.Backed.move (hs : s.Backed base) {a : Move} (h : s.move base a = some s') :
    s'.Backed base ∧ s'.tasks.map Task.subject = s.tasks.map Task.subject := by
  cases a with
  | step i correlation =>
    simp only [State.move, Option.bind_eq_bind, Option.bind_eq_some_iff] at h
    obtain ⟨t, ht, ⟨t', c'⟩, hstep, h⟩ := h
    cases h
    obtain ⟨ht', hc', hsub⟩ := Task.step_backed (hs.tasks t (List.mem_of_getElem? ht)) hs.cache hstep
    refine ⟨⟨fun u hu => ?_, hc'⟩, map_set_of_eq ht hsub⟩
    rcases List.mem_or_eq_of_mem_set hu with hu | rfl
    · exact hs.tasks u hu
    · exact ht'
  | answer i r =>
    simp only [State.move] at h
    split at h
    · rename_i keyId wrapped correlation q ht
      cases h
      cases hs.tasks _ (List.mem_of_getElem? ht) with
      | decrypt backed =>
        cases backed with
        | asking request =>
          have hsub : s.exchanges ⊆ (q, r) :: s.exchanges := List.subset_cons_self _ _
          refine ⟨⟨fun u hu => ?_, fun k w p hp => (hs.cache k w p hp).mono hsub⟩, map_set_of_eq ht rfl⟩
          rcases List.mem_or_eq_of_mem_set hu with hu | rfl
          · exact (hs.tasks u hu).mono hsub
          · exact .decrypt (Phase.answered_backed r request)
    · cases h

lemma State.Backed.follow (hs : s.Backed base) {moves : List Move} (h : s.follow base moves = some s') :
    s'.Backed base ∧ s'.tasks.map Task.subject = s.tasks.map Task.subject := by
  induction moves generalizing s with
  | nil =>
    cases h
    exact ⟨hs, rfl⟩
  | cons a moves ih =>
    obtain ⟨u, hu, h⟩ := Option.bind_eq_some_iff.mp h
    obtain ⟨hub, husub⟩ := hs.move hu
    obtain ⟨hb, hsub⟩ := ih hub h
    exact ⟨hb, hsub.trans husub⟩

def Task.Fresh : Task → Prop
  | .decrypt _ _ .looking => True
  | .clear false => True
  | _ => False

lemma Task.Fresh.backed {t : Task} (h : t.Fresh) : t.Backed base [] := by
  cases t with
  | decrypt keyId wrapped phase =>
    cases phase with
    | looking => exact .decrypt .looking
    | asking | storing | ended => cases h
  | clear done => exact .clear

lemma State.backed_start {tasks : List Task} (h : ∀ t ∈ tasks, t.Fresh) :
    (State.start tasks).Backed base := by
  refine ⟨fun t ht => (h t ht).backed, fun k w p hp => ?_⟩
  rw [State.start, Cache.get?_empty] at hp
  cases hp

end Runs

/-- However calls to open keys and to forget them are interleaved and answered: each call stays with its
pair, what it returns was given for that pair, and so was all that is known of the pair; if the service
gave no two plaintexts for a pair, all calls for it that succeed return the same. -/
theorem opened_for_own_pair {base : String} {tasks : List Task} (hf : ∀ t ∈ tasks, t.Fresh)
    {moves : List Move} {s : State} (h : (State.start tasks).follow base moves = some s) :
    (∀ (i : Nat) (keyId wrapped : String), tasks[i]? = some (.decrypt keyId wrapped .looking) →
      ∃ phase, s.tasks[i]? = some (.decrypt keyId wrapped phase) ∧
        ∀ plaintext, phase = .ended (.ok plaintext) → Gave base s.exchanges keyId wrapped plaintext) ∧
    (∀ keyId wrapped plaintext, s.cache.get? wrapped keyId = some plaintext →
      Gave base s.exchanges keyId wrapped plaintext) ∧
    (∀ keyId wrapped plaintext, (∀ p, Gave base s.exchanges keyId wrapped p → p = plaintext) →
      ∀ p, .decrypt keyId wrapped (.ended (.ok p)) ∈ s.tasks → p = plaintext) ∧
    ∀ (q : Web.Request) (keyId keyId' wrapped wrapped' correlation correlation' : String),
      Remote.decryptRequest base keyId wrapped correlation = .ok q →
      Remote.decryptRequest base keyId' wrapped' correlation' = .ok q →
      keyId = keyId' ∧ wrapped = wrapped' := by
  obtain ⟨hb, hsub⟩ := (State.backed_start hf).follow h
  have hgave {keyId wrapped p : String} (hm : .decrypt keyId wrapped (.ended (.ok p)) ∈ s.tasks) :
      Gave base s.exchanges keyId wrapped p := by
    cases hb.tasks _ hm with
    | decrypt backed =>
      cases backed with
      | ended given => exact given
  refine ⟨fun i keyId wrapped hi => ?_, hb.cache, fun keyId wrapped plaintext hp p hm => hp p (hgave hm),
    fun q _ _ _ _ _ _ hq hq' => decryptRequest_injective hq hq'⟩
  have hi' : (s.tasks.map Task.subject)[i]? = some (some (keyId, wrapped)) := by
    rw [hsub, State.start, List.getElem?_map, hi]
    rfl
  rw [List.getElem?_map, Option.map_eq_some_iff] at hi'
  obtain ⟨t, ht, hts⟩ := hi'
  cases t with
  | decrypt k w phase =>
    cases hts
    refine ⟨phase, ht, fun p hp => hgave ?_⟩
    rw [← hp]
    exact List.mem_of_getElem? ht
  | clear done => cases hts

def sampleRequest : Web.Request where
  method := "POST"
  url := ⟨"http", "dks", none, "/datakey/actions/decrypt".toList,
    some "keyId=kek&correlationId=1".toList, none⟩
  contentType := some "text/plain"
  body := "sealed"

def sampleReply : Web.Reply := .answer 200 (Bytes.ofText "\x7b\"plaintextDataKey\":\"clear\"\x7d")

def sampleMoves : List Move :=
  [.step 0 "1", .step 1 "1", .answer 1 sampleReply, .step 1 "", .step 2 "", .answer 0 sampleReply, .step 0 ""]

lemma ask_sample : Phase.ask "http://dks" "1" "kek" "sealed" = .asking "1" sampleRequest :=
  rfl

lemma answered_sample : Phase.answered "kek" "1" sampleRequest sampleReply = .storing "clear" := by
  have hr : opened? sampleReply = some "clear" := by decide +kernel
  rw [Phase.answered,
    ((understands_decrypt "kek").ok decrypting "1" sampleRequest.url sampleReply "clear").mpr hr]

theorem opened_for_own_pair_sample : ∃ s,
    (State.start [.decrypt "kek" "sealed" .looking, .decrypt "kek" "sealed" .looking, .clear false]).follow
      "http://dks" sampleMoves = some s ∧
    s.tasks = [.decrypt "kek" "sealed" (.ended (.ok "clear")), .decrypt "kek" "sealed" (.ended (.ok "clear")),
      .clear true] ∧
    Gave "http://dks" s.exchanges "kek" "sealed" "clear" := by
  have hf : ∀ t ∈ [Task.decrypt "kek" "sealed" .looking, .decrypt "kek" "sealed" .looking, .clear false],
      t.Fresh := by
    simp [Task.Fresh]
  have hs : ∃ s, (State.start [.decrypt "kek" "sealed" .looking, .decrypt "kek" "sealed" .looking,
      .clear false]).follow "http://dks" sampleMoves = some s ∧
      s.tasks = [.decrypt "kek" "sealed" (.ended (.ok "clear")),
        .decrypt "kek" "sealed" (.ended (.ok "clear")), .clear true] := by
    simp [sampleMoves, State.start, State.follow, State.move, Task.step, ask_sample, answered_sample]
  obtain ⟨s, h, ht⟩ := hs
  obtain ⟨hcalls, -, -, -⟩ := opened_for_own_pair hf h
  obtain ⟨phase, hp, hg⟩ := hcalls 0 "kek" "sealed" rfl
  refine ⟨s, h, ht, hg "clear" ?_⟩
  rw [ht] at hp
  cases hp
  rfl

end DumpImport.KeyService
