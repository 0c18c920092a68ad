import DumpImport.Command.Run
import DumpImport.Proofs.KeyService.Attempts
import DumpImport.Proofs.Text.Uuid
import DumpImport.Proofs.Web.Address

namespace DumpImport.KeyService

open Web Remote

section Bases

def slashes (n : Nat) : String := String.ofList (List.replicate n '/')

variable (base : String)

lemma exists_trimBase : ∃ n, base = trimBase base ++ slashes n := by
  obtain ⟨ws, hws, hbase⟩ := Text.exists_dropTail_append (· == '/') base.toList
  have hall : ws = List.replicate ws.length '/' :=
    List.eq_replicate_iff.mpr ⟨rfl, fun c hc => by simpa using hws c hc⟩
  refine ⟨ws.length, ?_⟩
  rw [trimBase, slashes, ← hall, ← String.ofList_append, ← hbase, String.ofList_toList]

lemma getLast?_trimBase : (trimBase base).toList.getLast? ≠ some '/' := by
  intro h
  rw [trimBase, String.toList_ofList] at h
  cases Text.not_of_mem_getLast?_dropTail h

lemma trimBase_append (n : Nat) : trimBase (base ++ slashes n) = trimBase base := by
  have hslashes : ∀ c ∈ List.replicate n '/', (c == '/') = true := by
    intro c hc
    rw [List.eq_of_mem_replicate hc]
    rfl
  rw [trimBase, slashes, String.toList_append, String.toList_ofList,
    Text.dropTail_append _ _ hslashes, trimBase]

end Bases

def openPath : String := "/datakey/actions/decrypt"

structure Carries (base : String) (u : Url) (keyId wrapped correlation : String) (q : Request) : Prop where
  method : q.method = "POST"
  contentType : q.contentType = some "text/plain"
  body : q.body = wrapped
  address : Url.parse (trimBase base ++ openPath) = .ok { q.url with query := none }
  path : ∃ front ws, (∀ c ∈ ws, c = '/') ∧ u.path = front ++ ws ∧
    Url.parse (trimBase base ++ "/") = .ok { u with path := front ++ ['/'] } ∧
    q.url = { u with path := front ++ openPath.toList, query := q.url.query }
  spelled : ∀ v, Url.parse (trimBase base ++ "/") = .ok v → v.text = trimBase base ++ "/" →
    ({ q.url with query := none } : Url).text = trimBase base ++ openPath
  received : received q.url.target = (q.url.path, [("keyId", keyId), ("correlationId", correlation)])

section Carried

variable {base : String} {u : Url}

lemma openPath_eq : openPath.toList = '/' :: "datakey/actions/decrypt".toList := rfl

lemma settled_openPath : Url.Settled (Url.splitSegments "datakey/actions/decrypt".toList) := by
  decide +kernel

lemma continues_openPath : Url.Continues openPath.toList := by
  refine ⟨?_, List.all_eq_true.mp rfl⟩
  rw [openPath_eq]
  simp

lemma text_append (hq : u.query = none) (hf : u.fragment = none) {front t : List Char} {s : String}
    (h : ({ u with path := front ++ t } : Url).text = s ++ .ofList t) (t' : List Char) :
    ({ u with path := front ++ t' } : Url).text = s ++ .ofList t' := by
  have htext (p : List Char) :
      ({ u with path := p } : Url).text = u.scheme ++ "://" ++ u.authority ++ .ofList p := by
    simp [Url.text, Url.target, Url.authority, hq, hf]
  rw [htext, String.ofList_append, ← String.append_assoc] at h ⊢
  rw [String.append_left_inj] at h
  rw [h]

lemma exists_carries (hb : Url.IsBase base u) (keyId wrapped correlation : String) :
    ∃ q, decryptRequest base keyId wrapped correlation = .ok q ∧
    Carries base u keyId wrapped correlation q := by
  obtain ⟨n, hn⟩ := exists_trimBase base
  have hbase : base.toList = (trimBase base).toList ++ List.replicate n '/' := by
    conv_lhs => rw [hn]
    rw [String.toList_append, slashes, String.toList_ofList]
  obtain ⟨front, ws, hmark, hslashes, hpath, hgoes⟩ := hb.exists_front hbase fun c => List.eq_of_mem_replicate
  have htext (s : String) : trimBase base ++ s = .ofList ((trimBase base).toList ++ s.toList) := by
    rw [← String.toList_append, String.ofList_toList]
  have hopen : Url.parse (trimBase base ++ openPath) = .ok { u with path := front ++ openPath.toList } := by
    rw [htext, openPath_eq]
    exact hgoes _ settled_openPath (by decide) continues_openPath
  have hroot : Url.parse (trimBase base ++ "/") = .ok { u with path := front ++ ['/'] } := by
    rw [htext]
    exact hgoes [] (Url.settled_slashes (List.forall_mem_nil _)) (by simp)
      (Url.continues_slashes (List.forall_mem_singleton.mpr rfl))
  have hplain : '?' ∉ front ++ openPath.toList := by
    rw [List.mem_append, not_or]
    exact ⟨hmark, by decide⟩
  refine ⟨_, by rw [decryptRequest, ← openPath, hopen]; rfl, rfl, rfl, rfl, ?_, ?_, ?_, ?_⟩
  · rw [hopen, Url.addQuery, hb.query]
  · exact ⟨front, ws, hslashes, hpath, hroot, rfl⟩
  · intro v hv hspelled
    rw [hroot] at hv
    cases hv
    have h := text_append (t := ['/']) hb.query hb.fragment hspelled openPath.toList
    rw [String.ofList_toList] at h
    rw [← h, Url.addQuery, hb.query]
  · exact received_addQuery (u := { u with path := front ++ openPath.toList }) hb.query hplain _

lemma Carries.written_ne {base' : String} {u' : Url} {keyId keyId' wrapped wrapped' id id' : String}
    {q q' : Request} (h : Carries base u keyId wrapped id q)
    (h' : Carries base' u' keyId' wrapped' id' q') (hne : keyId ≠ keyId') :
    written "keyId" q.url.target ≠ written "keyId" q'.url.target := by
  intro heq
  have hread := congrArg (List.map Form.decode) heq
  rw [map_decode_written, map_decode_written, h.received, h'.received] at hread
  exact hne (by simpa using hread)

end Carried

section Sending

/-- The exchanges of a call, first to last, each with the request of the next number. -/
structure Sends (request : Nat → Except Url.Error Request) (s s' : Session) (es : List Exchange) : Prop where
  drawn : s'.drawn = s.drawn + es.length
  exchanges : s'.exchanges = es.reverse ++ s.exchanges
  numbered : ∀ i e, es[i]? = some e → request (s.drawn + i) = .ok e.request

variable {request : Nat → Except Url.Error Request} {s s' s'' : Session} {es es' : List Exchange}

lemma Sends.append (h : Sends request s s' es) (h' : Sends request s' s'' es') :
    Sends request s s'' (es ++ es') := by
  refine ⟨?_, ?_, fun i e he => ?_⟩
  · rw [h'.drawn, h.drawn, List.length_append, Nat.add_assoc]
  · rw [h'.exchanges, h.exchanges, List.reverse_append, List.append_assoc]
  · by_cases hi : i < es.length
    · rw [List.getElem?_append_left hi] at he
      exact h.numbered i e he
    · rw [List.getElem?_append_right (Nat.le_of_not_lt hi)] at he
      have hnumber : s.drawn + i = s'.drawn + (i - es.length) := by
        rw [h.drawn]
        omega
      rw [hnumber]
      exact h'.numbered _ e he

variable {x : Surroundings} {u : Url} {keyId wrapped : String}

lemma exists_sends_once (hb : Url.IsBase x.base u) (h : s.cache.get? wrapped keyId = none) :
    ∃ e, Sends (fun i => decryptRequest x.base keyId wrapped (x.correlations i)) s
      (x.remote.service.decrypt keyId wrapped s).2 [e] := by
  obtain ⟨q, hq, hc⟩ := exists_carries hb keyId wrapped (x.correlations s.drawn)
  have hsendable : sendable decrypting (x.correlations s.drawn)
      (decryptRequest x.base keyId wrapped (x.correlations s.drawn)) = .ok q := by
    obtain ⟨front, ws, -, -, -, hurl⟩ := hc.path
    rw [hq, sendable, hurl]
    exact if_pos hb.web
  have hask : x.remote.decrypt keyId wrapped s = _ := ask_sent x hsendable
  rw [remote_decrypt_missed h, hask]
  refine ⟨⟨q, x.replies s.sent, s.cache⟩, ?_, ?_, fun i e he => ?_⟩
  · rw [Purpose.drawn_keeping]
    rfl
  · rw [Purpose.exchanges_keeping]
    rfl
  · cases i with
    | zero =>
      cases he
      exact hq
    | succ i => cases he

lemma exists_sends (hb : Url.IsBase x.base u) (h : s.cache.get? wrapped keyId = none) :
    ∃ es, es ≠ [] ∧ (x.retry = none → es.length = 1) ∧
      Sends (fun i => decryptRequest x.base keyId wrapped (x.correlations i)) s
        (x.service.decrypt keyId wrapped s).2 es := by
  rw [Surroundings.service]
  cases x.retry with
  | none =>
    obtain ⟨e, he⟩ := exists_sends_once hb h
    exact ⟨[e], List.cons_ne_nil _ _, fun _ => rfl, he⟩
  | some policy =>
    have hsome : ∃ es, es ≠ [] ∧ Sends (fun i => decryptRequest x.base keyId wrapped (x.correlations i)) s
        (attempted policy policy.zero_lt (x.remote.service.decrypt keyId wrapped) s).2 es := by
      -- a failure keeps the keys as they are, so the next attempt misses the same one
      refine attempted_induction policy policy.zero_lt (c := s.cache)
        (motive := fun s out => ∃ es, es ≠ [] ∧ Sends _ s out.2 es) (fun s' hs => ?_) (fun s' e hs he => ?_)
        (fun s' e out hs he hr hout => ?_) rfl
      · obtain ⟨e, he⟩ := exists_sends_once hb (hs ▸ h)
        exact ⟨[e], List.cons_ne_nil _ _, he⟩
      · obtain ⟨es, -, hd⟩ := fulfils_remote_decrypt (x := x) (hs ▸ h : s'.cache.get? wrapped keyId = none)
        exact (hd.kept e he).trans hs
      · obtain ⟨e, he⟩ := exists_sends_once hb (hs ▸ h)
        obtain ⟨es, -, hes⟩ := hout
        exact ⟨[e] ++ es, List.cons_ne_nil _ _, he.append hes⟩
    obtain ⟨es, hes, hsends⟩ := hsome
    exact ⟨es, hes, by rintro ⟨⟩, hsends⟩

end Sending

def drawing (base : String) (replies : Nat → Reply) (blocks : Nat → Cipher.Block)
    (retry : Option Retry.Policy) :
    Surroundings := ⟨base, replies, fun i => Text.uuid (blocks i).bytes, retry⟩

theorem keys_eq (h : Command.Host (StateM Session)) (settings : Settings) (replies : Nat → Reply)
    (blocks : Nat → Cipher.Block)
    (hsend : h.send = (drawing settings.serviceUrl replies blocks none).remote.send)
    (hrandom : h.random = fun s => (blocks s.drawn, { s with drawn := s.drawn + 1 }))
    (hcount : ∀ m, h.count m = pure ()) (hpause : ∀ d, h.pause d = pure ()) :
    h.keys settings = (drawing settings.serviceUrl replies blocks (some settings.retry)).service := by
  simp only [Command.Host.keys, Command.Host.uuid, hsend, hrandom, hcount, hpause]
  rfl

/-- A key that was not opened before is asked for at the base, with what the call was made with and
an identifier drawn for each request; and the service can tell any two key ids apart. -/
theorem decrypt_arguments_arrive {base : String} {u : Url} (hb : Url.IsBase base u) :
    ((∃ n, base = trimBase base ++ slashes n) ∧ (trimBase base).toList.getLast? ≠ some '/' ∧
      ∀ n, decryptRequest (base ++ slashes n) = decryptRequest base) ∧
    (∀ replies blocks retry (s : Session) keyId wrapped, s.cache.get? wrapped keyId = none →
      let s' := ((drawing base replies blocks retry).service.decrypt keyId wrapped s).2
      ∃ es, es ≠ [] ∧ (retry = none → es.length = 1) ∧ s'.drawn = s.drawn + es.length ∧
        s'.exchanges = es.reverse ++ s.exchanges ∧ ∀ i e, es[i]? = some e →
          let id := Text.uuid (blocks (s.drawn + i)).bytes
          Text.IsRandomId id ∧ Carries base u keyId wrapped id e.request) ∧
    (∀ b c : Cipher.Block, Text.uuid b.bytes = Text.uuid c.bytes → Text.unmarked b = Text.unmarked c) ∧
    ∀ keyId keyId' wrapped wrapped' id id' q q', Carries base u keyId wrapped id q →
      Carries base u keyId' wrapped' id' q' → keyId ≠ keyId' →
        written "keyId" q.url.target ≠ written "keyId" q'.url.target := by
  have hslashes (n : Nat) : decryptRequest (base ++ slashes n) = decryptRequest base := by
    funext keyId wrapped correlation
    rw [decryptRequest, trimBase_append, decryptRequest]
  refine ⟨⟨exists_trimBase base, getLast?_trimBase base, hslashes⟩, ?_, fun _ _ => Text.unmarked_eq_of_uuid,
    fun _ _ _ _ _ _ _ _ => Carries.written_ne⟩
  · intro replies blocks retry s keyId wrapped hmiss
    obtain ⟨es, hes, hone, hsends⟩ := exists_sends (x := drawing base replies blocks retry) hb hmiss
    refine ⟨es, hes, hone, hsends.drawn, hsends.exchanges, fun i e he => ⟨Text.isRandomId_uuid _, ?_⟩⟩
    obtain ⟨q, hq, hc⟩ := exists_carries hb keyId wrapped (Text.uuid (blocks (s.drawn + i)).bytes)
    cases hq.symm.trans (hsends.numbered i e he)
    exact hc

def dks : Url := ⟨"http", "dks", none, "/a//".toList, none, none⟩

theorem decrypt_arguments_arrive_reserved :
    Url.IsBase "http://dks/a//" dks ∧ (Cache.empty.get? "key==" "a&b=c #%+é" = none) ∧
      Text.uuid (Cipher.Block.ofNat 0).bytes = Text.uuid (Cipher.Block.ofNat (0xC0 <<< 56)).bytes ∧
      Text.unmarked (Cipher.Block.ofNat 0) = Text.unmarked (Cipher.Block.ofNat (0xC0 <<< 56)) ∧
      ∃ q q', Carries "http://dks/a//" dks "a&b=c #%+é" "key==" "00000000-0000-4000-8000-000000000000" q ∧
        Carries "http://dks/a//" dks "a" "" "00000000-0000-4000-8000-000000000000" q' ∧
        ({ q.url with query := none } : Url).text = "http://dks/a/datakey/actions/decrypt" ∧
        written "keyId" q.url.target ≠ written "keyId" q'.url.target := by
  have hbase : Url.IsBase "http://dks/a//" dks := by
    refine ⟨rfl, rfl, rfl, rfl, ?_⟩
    rintro c ⟨⟩
    rfl
  have hmark : Text.uuid (Cipher.Block.ofNat 0).bytes =
      Text.uuid (Cipher.Block.ofNat (0xC0 <<< 56)).bytes := by decide
  obtain ⟨-, hsent, hfree, hdiffer⟩ := decrypt_arguments_arrive hbase
  have hone (keyId wrapped : String) :
      ∃ q, Carries "http://dks/a//" dks keyId wrapped "00000000-0000-4000-8000-000000000000" q := by
    obtain ⟨es, -, hlength, -, -, hcarries⟩ :=
      hsent (fun _ => .dropped) (fun _ => .ofNat 0) none ⟨.empty, 0, 0, []⟩
        keyId wrapped (Cache.get?_empty wrapped keyId)
    obtain ⟨e, rfl⟩ := List.length_eq_one_iff.mp (hlength rfl)
    exact ⟨e.request, (hcarries 0 e rfl).2⟩
  obtain ⟨q, hq⟩ := hone "a&b=c #%+é" "key=="
  obtain ⟨q', hq'⟩ := hone "a" ""
  exact ⟨hbase, Cache.get?_empty _ _, hmark, hfree _ _ hmark, q, q', hq, hq', hq.spelled _ rfl rfl,
    hdiffer _ _ _ _ _ _ q q' hq hq' (by decide)⟩

end DumpImport.KeyService
