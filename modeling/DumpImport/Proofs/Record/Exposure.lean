import DumpImport.Proofs.Json.Deep
import DumpImport.Proofs.Record.Rejection

namespace DumpImport.Record

open Json

namespace Envelope

structure Alike (c c' : Content) : Prop where
  type : typeOf c.document = typeOf c'.document
  id : c.id = c'.id
  lastModified : c.lastModified = c'.lastModified
  changes : c.changes = c'.changes
  iv : c.body.iv = c'.body.iv
  keyId : c.dataKey.id = c'.dataKey.id
  sealedKey : c.dataKey.ciphertext = c'.dataKey.ciphertext
  database : c.database = c'.database
  collection : c.collection = c'.collection

def header (s : Stamp) : Object := [
  ("unitOfWorkId", .string s.unitOfWork),
  ("timestamp", .string s.time),
  ("traceId", .string s.trace),
  (Field.type, .string kind),
  ("version", .string version)]

def afterId (c : Content) : Object := (message c .null).drop 2

def particulars (c : Content) : Object := (afterId c).take 11

variable {s : Stamp} {c c' : Content} {v : Value}

lemma Alike.refl (c : Content) : Alike c c := ⟨rfl, rfl, rfl, rfl, rfl, rfl, rfl, rfl, rfl⟩

lemma value_eq (s : Stamp) (c : Content) (v : Value) :
    value s c v = .object (header s ++ ("message", .object (message c v)) :: []) := rfl

lemma message_eq_id (c : Content) (v : Value) :
    message c v = [(Field.type, .string (typeOf c.document))] ++ (Field.id, v) :: afterId c := rfl

lemma message_eq_body (c : Content) (v : Value) :
    message c v = ((Field.type, .string (typeOf c.document)) :: (Field.id, v) :: particulars c) ++
      ("dbObject", .string c.body.body) :: [("encryption", .object (encryption c))] := rfl

lemma Alike.particulars (h : Alike c c') : particulars c = particulars c' := by
  simp only [Envelope.particulars, afterId, message, List.drop_succ_cons, List.drop_zero, List.take_succ_cons,
    List.take_zero, h.id, h.lastModified, h.changes, h.collection, h.database]

lemma Alike.encryption (h : Alike c c') : encryption c = encryption c' := by
  simp only [Envelope.encryption, h.keyId, h.iv, h.sealedKey]

lemma compact_value_alike (s : Stamp) (c : Content) (v : Value) : ∃ front back, ∀ c', Alike c c' →
    (value s c' v).compact = front ++ (Value.string c'.body.body).compact ++ back := by
  refine ⟨String.ofList (Object.upTo (header s) "message" ++
      Object.upTo ((Field.type, .string (typeOf c.document)) :: (Field.id, v) :: particulars c) "dbObject"),
    String.ofList (Object.behind [("encryption", .object (encryption c))] ++ Object.behind []),
    fun c' h => ?_⟩
  rw [Value.compact, value_eq, render_object_append, message_eq_body, render_object_append,
    h.type, h.particulars, h.encryption, Value.compact, ← String.ofList_append, ← String.ofList_append]
  simp only [List.append_assoc]

def upToId (s : Stamp) (c : Content) (v : Value) : List Char :=
  Object.upTo (header s) "message" ++
    Object.upTo [(Field.type, .string (typeOf c.document))] Field.id ++ v.render

lemma render_value (s : Stamp) (c : Content) (v : Value) :
    (value s c v).render = upToId s c v ++ (Object.behind (afterId c) ++ Object.behind []) := by
  rw [value_eq, render_object_append, message_eq_id, render_object_append, upToId]
  simp only [List.append_assoc]

lemma value_tooDeep {n : Nat}
    (h : TooDeep (Json.value 125) (Text.Utf8.encode v.render) n) (s : Stamp) (c : Content) :
    TooDeep (Json.value maxDepth) (Text.Utf8.encode (value s c v).render)
      (n + (Text.Utf8.encode (Object.behind (afterId c) ++ Object.behind [])).length) := by
  have hstring (d : Nat) (t : String) :
      ∃ w, Gives (Json.value d) (Text.Utf8.encode (Value.string t).render) (some w) :=
    ⟨.string t, value_gives (v := .string t) trivial d⟩
  have hheader : ∀ m ∈ header s, ∃ w, Gives (Json.value 126) (Text.Utf8.encode m.2.render) (some w) := by
    simp only [header, List.forall_mem_cons]
    exact ⟨hstring _ _, hstring _ _, hstring _ _, hstring _ _, hstring _ _, List.forall_mem_nil _⟩
  have hmessage :=
    object_deep (l := [(Field.type, .string (typeOf c.document))]) (k := Field.id) (r := afterId c)
      (List.forall_mem_singleton.mpr (hstring 125 (typeOf c.document))) h
  rw [← message_eq_id] at hmessage
  have hvalue := object_deep (k := "message") (r := []) hheader hmessage
  rwa [← value_eq, Nat.add_assoc, ← List.length_append, ← Text.Utf8.encode_append] at hvalue

lemma parse_deep (hk : v.Keyed) (hv : v.Valid) (hd : 125 < v.depth) (s : Stamp) (c : Content) :
    ∃ e, ∀ c', Alike c c' → parse (value s c' v).compact = .error e := by
  obtain ⟨n, hn⟩ := value_deep hk hv hd
  refine ⟨Failure.locate (Text.Utf8.encode (upToId s c v)) ⟨.tooDeep, n⟩, fun c' h => ?_⟩
  rw [parse_tooDeep (render_value s c' v) (value_tooDeep hn s c'), upToId, upToId, h.type]

end Envelope

section Agreement

variable {u u' : Unwrapped} {p : Prepared}

lemma exists_of_prepare (hp : u.prepare = .ok p) : ∃ i d f t, u.document.readId = .ok i ∧
    u.document.readDates = .ok d ∧ u.document.withId i = .ok f ∧ millisOf d.lastModified.text = .ok t ∧
    p = ⟨f.withDates d, i, d,
      ⟨d.created.altered, d.removed.altered, d.archived.altered, u.removed, u.archived⟩, t⟩ := by
  obtain ⟨i, hi, hp⟩ := bind_eq_ok.mp hp
  obtain ⟨d, hd, hp⟩ := bind_eq_ok.mp hp
  obtain ⟨f, hf, hp⟩ := bind_eq_ok.mp hp
  obtain ⟨t, ht, hp⟩ := bind_eq_ok.mp hp
  cases hp
  exact ⟨i, d, f, t, hi, hd, hf, ht, rfl⟩

lemma prepare_congr (h : ∀ k ∈ Field.id :: Field.dates, Object.get? u.document k = Object.get? u'.document k)
    (hr : u.removed = u'.removed) (ha : u.archived = u'.archived) (hp : u.prepare = .ok p) :
    ∃ p', u'.prepare = .ok p' ∧ p'.id = p.id ∧ p'.dates = p.dates ∧ p'.changes = p.changes ∧
      p'.version = p.version := by
  cases hp' : u'.prepare with
  | error e => cases hp.symm.trans (prepare_error_congr (fun k hk => (h k hk).symm) hp')
  | ok p' =>
    rw [List.forall_mem_cons] at h
    obtain ⟨i, d, f, t, hi, hd, -, ht, rfl⟩ := exists_of_prepare hp
    obtain ⟨i', d', f', t', hi', hd', -, ht', rfl⟩ := exists_of_prepare hp'
    rw [readId_congr h.1] at hi
    rw [readDates_congr h.2] at hd
    cases hi.symm.trans hi'
    cases hd.symm.trans hd'
    cases ht.symm.trans ht'
    exact ⟨_, rfl, rfl, rfl, by rw [hr, ha], rfl⟩

lemma typeOf_prepared (hp : u.prepare = .ok p) : Envelope.typeOf p.document = Envelope.typeOf u.document := by
  obtain ⟨i, d, f, t, hi, -, hf, -, rfl⟩ := exists_of_prepare hp
  obtain ⟨v, hv, -⟩ := reads_of_readId hi
  obtain ⟨-, hne⟩ := withId_spec hf (Object.mem_keys_of_get? hv)
  rw [Envelope.typeOf, Envelope.typeOf, get?_withDates_of_notMem _ _ (by decide), hne _ (by decide)]

end Agreement

namespace Mapper

def Usable (m : Mapper) : Prop :=
  ∃ k, Cipher.decode .key m.dataKey.plaintext = .ok k ∧ Cipher.isKeyLength k.length = true

def rekeyed (m : Mapper) (plaintext : String) : Mapper :=
  { m with dataKey := { m.dataKey with plaintext := plaintext } }

variable {m : Mapper} {c : Dump.Collection} {d : Draw} {line line' : String}

lemma Usable.encrypt (h : m.Usable) (d : Draw) (p : Prepared) :
    ∃ body, m.encrypt d p = .ok body ∧ body.iv = Text.Base64.encode d.iv.bytes := by
  obtain ⟨k, hk, hl⟩ := h
  obtain ⟨body, hb⟩ := encrypt_of_key (d := d) hk hl p
  refine ⟨body, hb, ?_⟩
  rw [Mapper.encrypt] at hb
  split at hb
  · rename_i hc
    cases hb
    obtain ⟨_, -, -, rfl⟩ := Cipher.encrypt_eq_ok.mp hc
    rfl
  · cases hb

end Mapper

def SameButBody (t t' : String) : Prop := ∃ front back,
  (∀ x, ∃ e, parse (front ++ (Value.string x).compact ++ back) = .ok e ∧
    e.at? ["message", "dbObject"] = some (.string x)) ∧
  ∃ x x', t = front ++ (Value.string x).compact ++ back ∧ t' = front ++ (Value.string x').compact ++ back

lemma Envelope.sameButBody {s : Stamp} {c c' : Content} {v w : Value} (hk : v.Keyed)
    (hr : v.reread? 125 = some w) (h : Alike c c') :
    SameButBody (value s c v).compact (value s c' v).compact := by
  obtain ⟨front, back, ht⟩ := compact_value_alike s c v
  refine ⟨front, back, fun x => ?_, c.body.body, c'.body.body, ht c (.refl c), ht c' h⟩
  have hx := ht { c with body := ⟨c.body.iv, x⟩ } ⟨rfl, rfl, rfl, rfl, rfl, rfl, rfl, rfl, rfl⟩
  exact ⟨_, hx ▸ (parse_value s _ hk).mpr ⟨w, hr, rfl⟩, at?_body _ _ _⟩

namespace Mapper

variable {m : Mapper} {c : Dump.Collection} {d : Draw} {line line' : String}

lemma map_of_unread {p : Prepared} {body : Cipher.Sealed} {v : Value} {e : Json.Error}
    (hp : prepare line = .ok p) (hb : m.encrypt d p = .ok body) (hv : p.id.value = .ok v)
    (he : parse (Envelope.value ⟨m.unitOfWork, m.trace, d.time⟩ (m.content c p body) v).compact = .error e) :
    m.map c d line = .error (.json e) := by
  have hk : Key.ofText (Envelope.value ⟨m.unitOfWork, m.trace, d.time⟩ (m.content c p body) v).compact =
      .error (.json e) := by
    rw [Key.ofText, he]
  simp only [map, hp, hb, build_content hv, hk, bind, Except.bind]

end Mapper

/-- Two lines whose documents, out of their wrappers, agree on the id, the type and the dates are mapped
under any two data keys with the same error, or else to the same key, version and verdict and to
envelopes that differ in the body alone. -/
theorem routing_exposed_only {m : Mapper} {t : String} (hm : m.Usable) (hm' : (m.rekeyed t).Usable)
    (c : Dump.Collection) (d : Draw) {line line' : String} {o o' : Document} {u u' : Unwrapped}
    (ho : parseDocument line = .ok o) (hu : o.unwrap = .ok u)
    (ho' : parseDocument line' = .ok o') (hu' : o'.unwrap = .ok u')
    (hk : ∀ k ∈ Field.type :: Field.id :: Field.dates, Object.get? u.document k = Object.get? u'.document k)
    (hr : u.removed = u'.removed) (ha : u.archived = u'.archived) :
    (∃ e, m.map c d line = .error e ∧ (m.rekeyed t).map c d line' = .error e) ∨
    ∃ r r', m.map c d line = .ok r ∧ (m.rekeyed t).map c d line' = .ok r' ∧ r.key = r'.key ∧
      r.version = r'.version ∧ r.verdict = r'.verdict ∧ SameButBody r.envelope r'.envelope := by
  rw [List.forall_mem_cons] at hk
  obtain ⟨htype, hk⟩ := hk
  have hline := prepare_of_unwrap ho hu
  have hline' := prepare_of_unwrap ho' hu'
  cases hp : u.prepare with
  | error e =>
    have hp' := prepare_error_congr hk hp
    exact .inl ⟨e, bind_eq_error.mpr (.inl (hline.trans hp)), bind_eq_error.mpr (.inl (hline'.trans hp'))⟩
  | ok p =>
    obtain ⟨p', hp', hi, hd, hc, hv⟩ := prepare_congr hk hr ha hp
    obtain ⟨body, hb, hiv⟩ := hm.encrypt d p
    obtain ⟨body', hb', hiv'⟩ := hm'.encrypt d p'
    have halike : Envelope.Alike (m.content c p body) ((m.rekeyed t).content c p' body') := by
      refine ⟨?_, hi.symm, congrArg Dates.lastModified hd.symm, hc.symm,
        hiv.trans hiv'.symm, rfl, rfl, rfl, rfl⟩
      rw [Mapper.content, Mapper.content, typeOf_prepared hp, typeOf_prepared hp',
        Envelope.typeOf, Envelope.typeOf, htype]
    obtain ⟨o₀, u₀, flat, hpr⟩ := prepares_of_prepare (hline.trans hp)
    obtain ⟨-, v, -, hid, hvalid, -⟩ := hpr.exists_value
    have hid' : p'.id.value = .ok v := hi ▸ hid
    have hkeyed := Id.value_keyed hid
    -- an id that is too deep for its envelope stops both runs, and in the same place of it
    by_cases hdepth : v.depth ≤ 125
    · obtain ⟨w, hw⟩ := (Value.exists_reread?_iff hvalid).mpr hdepth
      obtain ⟨k, hwraps⟩ := exists_wraps (hline.trans hp) hid hw
      refine .inr ⟨_, _, Mapper.map_of_reread (hline.trans hp) hb hid hw hwraps,
        Mapper.map_of_reread (hline'.trans hp') hb' hid' hw hwraps, rfl, hv.symm, ?_, ?_⟩
      · rw [hv]
        rfl
      · exact Envelope.sameButBody hkeyed hw halike
    · obtain ⟨e, he⟩ := Envelope.parse_deep hkeyed hvalid (Nat.lt_of_not_le hdepth)
        ⟨m.unitOfWork, m.trace, d.time⟩ (m.content c p body)
      exact .inl ⟨_, Mapper.map_of_unread (hline.trans hp) hb hid (he _ (.refl _)),
        Mapper.map_of_unread (hline'.trans hp') hb' hid' (he _ halike)⟩

def reorderedLine : String :=
  "\x7b\"y\":null,\"_id\":\x7b\"n\":1,\"createdDateTime\":\x7b\"$date\":\"2019-07-04T07:27:35.104Z\"\x7d\x7d\x7d"

def reordered : Document := ("y", .null) :: Mapper.sampleDocument.take 1

theorem routing_exposed_only_sample : ∃ r r',
    Mapper.sample.map .unset Mapper.sampleDraw Mapper.sampleLine = .ok r ∧
    (Mapper.sample.rekeyed "AAAAAAAAAAAAAAAAAAAAAQ==").map .unset Mapper.sampleDraw reorderedLine = .ok r' ∧
    r.key = r'.key ∧ r.version = r'.version ∧ r.verdict = r'.verdict ∧
    SameButBody r.envelope r'.envelope := by
  have hm : Mapper.sample.Usable := ⟨List.replicate 16 0, by decide +kernel, by decide⟩
  have hm' : (Mapper.sample.rekeyed "AAAAAAAAAAAAAAAAAAAAAQ==").Usable :=
    ⟨List.replicate 15 0 ++ [1], by decide +kernel, by decide⟩
  have ht : reorderedLine = Object.compact reordered := by decide +kernel
  have hl : reordered.Legible :=
    ⟨⟨by decide, trivial, ⟨by decide, trivial, ⟨by decide, trivial, trivial⟩, trivial⟩, trivial⟩,
      ⟨trivial, trivial, ⟨trivial, rfl, ⟨trivial, trivial, trivial⟩, trivial⟩, trivial⟩, by decide⟩
  have ho' : parseDocument reorderedLine = .ok reordered := by rw [ht, parseDocument_compact hl]
  have hk : ∀ k ∈ Field.type :: Field.id :: Field.dates,
      Object.get? Mapper.sampleDocument k = Object.get? reordered k := by
    simp only [Field.dates, List.forall_mem_cons]
    exact ⟨rfl, rfl, rfl, rfl, rfl, rfl, List.forall_mem_nil _⟩
  rcases routing_exposed_only hm hm' .unset Mapper.sampleDraw Mapper.parseDocument_sampleLine
    (u := ⟨Mapper.sampleDocument, false, false⟩) rfl ho'
    (rfl : Document.unwrap reordered = .ok ⟨reordered, false, false⟩) hk rfl rfl with ⟨e, he, -⟩ | h
  · obtain ⟨r, hr⟩ := Mapper.map_sampleLine
    cases hr.symm.trans he
  · exact h

end DumpImport.Record
