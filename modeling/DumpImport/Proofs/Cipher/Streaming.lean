import DumpImport.Cipher.Stream
import DumpImport.Proofs.Cipher.Sealing

namespace DumpImport.Cipher

section Texts

variable {E : BlockFunction} {key iv body : String}

def IsVector (iv : String) (v : Block) : Prop := Text.trim iv = Text.Base64.encode v.bytes

lemma Column.flatMap_bytes (bs : Bytes) (h : bs.length % 4 = 0) :
    (Column.ofBytes bs).flatMap Column.bytes = bs := by
  fun_induction Column.ofBytes bs with
  | case1 a b c d r ih =>
    have hr : r.length % 4 = 0 := by
      simp only [List.length_cons] at h
      omega
    rw [List.flatMap_cons, ih hr]
    rfl
  | case2 bs hn =>
    match bs, hn with
    | [], _ => rfl
    | [_], _ => simp at h
    | [_, _], _ => simp at h
    | [_, _, _], _ => simp at h
    | a :: b :: c :: d :: r, hn => exact absurd rfl (hn a b c d r)

lemma Block.ofBytes?_eq_some {bs : Bytes} {b : Block} : Block.ofBytes? bs = some b ↔ bs = b.bytes := by
  constructor
  · intro h
    rw [Block.ofBytes?] at h
    split at h
    · rename_i w x y z hc
      split_ifs at h with hl
      cases h
      have hb := Column.flatMap_bytes bs (by omega)
      rw [hc] at hb
      rw [← hb]
      rfl
    · cases h
  · rintro rfl
    rfl

lemma Keystream.ofText_eq_ok {s : Keystream} :
    Keystream.ofText E key iv = .ok s ↔ ∃ k v, IsKey key k ∧ IsVector iv v ∧ s = .start (E k) v := by
  simp only [Keystream.ofText, bind_eq_ok, decode_eq_ok]
  constructor
  · rintro ⟨k, hk, bs, hv, h⟩
    rw [Keystream.ofBytes] at h
    split at h
    · cases h
    · rename_i v hb
      split_ifs at h with hl
      cases h
      rw [Block.ofBytes?_eq_some.mp hb] at hv
      exact ⟨k, v, ⟨hk, isKeyLength_iff.mp hl⟩, hv, rfl⟩
  · rintro ⟨k, v, hk, hv, rfl⟩
    exact ⟨k, hk.1, v.bytes, hv, by rw [Keystream.ofBytes_block, if_pos (isKeyLength_iff.mpr hk.2)]⟩

lemma decrypt_encode_eq_ok {c plain : Bytes} : decrypt E key iv (Text.Base64.encode c) = .ok plain ↔
    ∃ k, Keystream.ofText E key iv = .ok k ∧ plain = (k.apply c).1 := by
  simp only [decrypt, bind_eq_ok, decode_encode, Except.ok.injEq]
  simp only [exists_eq_left', eq_comm]

end Texts

lemma Keystream.length_apply (k : Keystream) (bs : Bytes) : (k.apply bs).1.length = bs.length := by
  induction bs generalizing k with
  | nil => rfl
  | cons b bs ih => rw [apply_cons, List.length_cons, List.length_cons, ih]

/-- Where the ciphertext `c` comes from, piece by piece: a read gives the next of the bytes that are
left, no more than there is room for, and when it fails it has given none. -/
structure Source (c : Bytes) where
  State : Type
  Failure : Type
  supply : Supply State Failure
  rest : State → Bytes
  gives : ∀ {room s bs t}, supply room s = (.ok bs, t) → bs.length ≤ room ∧ rest s = bs ++ rest t
  fails : ∀ {room s e t}, supply room s = (.error e, t) → rest t = rest s
  first : State
  rest_first : rest first = c

def gained {ε : Type} (r : Except ε Bytes) : Bytes := r.toOption.getD []

namespace Source

variable {c : Bytes} (x : Source c)

lemma read (s : Stream x.State) (room : Nat) :
    ∃ bs, bs.length ≤ room ∧ x.rest s.inner = bs ++ x.rest (s.read x.supply room).2.inner ∧
      gained (s.read x.supply room).1 = (s.key.apply bs).1 ∧
      (s.read x.supply room).2.key = (s.key.apply bs).2 := by
  rw [Stream.read]
  rcases h : x.supply room s.inner with ⟨e | bs, t⟩
  · exact ⟨[], Nat.zero_le _, (x.fails h).symm, rfl, rfl⟩
  · exact ⟨bs, (x.gives h).1, (x.gives h).2, rfl, rfl⟩

lemma reads (s : Stream x.State) (rooms : List Nat) :
    ∃ bs, x.rest s.inner = bs ++ x.rest (s.reads x.supply rooms).2.inner ∧
      (s.reads x.supply rooms).1.flatMap gained = (s.key.apply bs).1 := by
  -- each read goes on where the one before left off, in the source and in the key stream
  induction rooms generalizing s with
  | nil => exact ⟨[], rfl, rfl⟩
  | cons room rooms ih =>
    obtain ⟨bs, -, hrest, hgained, hkey⟩ := x.read s room
    obtain ⟨cs, hrest', hgained'⟩ := ih (s.read x.supply room).2
    rw [hrest'] at hrest
    rw [hkey] at hgained'
    refine ⟨bs ++ cs, ?_, ?_⟩
    · rw [List.append_assoc]
      exact hrest
    · rw [Keystream.apply_append, ← hgained, ← hgained']
      rfl

end Source

section Reads

variable {c : Bytes} (x : Source c) (s : Stream x.State) (rooms : List Nat)

def Source.opened : Bytes := (s.reads x.supply rooms).1.flatMap gained

def Source.left : Bytes := x.rest (s.reads x.supply rooms).2.inner

def Source.EndsOnce : Prop := ∀ room t t', x.supply room t = (.ok [], t') → room = 0 ∨ x.rest t = []

structure Source.Opens (plain : Bytes) : Prop where
  begun : x.opened s rooms <+: plain
  fits : ∀ room, (gained ((s.reads x.supply rooms).2.read x.supply room).1).length ≤ room
  consumed : (x.opened s rooms).length + (x.left s rooms).length = c.length
  whole : x.left s rooms = [] → x.opened s rooms = plain
  ended : x.EndsOnce → ∀ room, room ≠ 0 → ((s.reads x.supply rooms).2.read x.supply room).1 = .ok [] →
    x.opened s rooms = plain

variable {s}

lemma Source.rest_of_empty (hx : x.EndsOnce) {room : Nat} (hr : room ≠ 0)
    (h : (s.read x.supply room).1 = .ok []) : x.rest s.inner = [] := by
  rw [Stream.read] at h
  rcases hp : x.supply room s.inner with ⟨e | bs, t⟩
  · rw [hp] at h
    cases h
  · rw [hp] at h
    have hl := Keystream.length_apply s.key bs
    rw [Except.ok.inj h] at hl
    rw [List.eq_nil_of_length_eq_zero hl.symm] at hp
    exact (hx room _ t hp).resolve_left hr

lemma Source.opens (hs : s.inner = x.first) : x.Opens s rooms (s.key.apply c).1 := by
  obtain ⟨bs, hrest, hopened⟩ := x.reads s rooms
  rw [hs, x.rest_first] at hrest
  have happ : (s.key.apply c).1 = x.opened s rooms ++ ((s.key.apply bs).2.apply (x.left s rooms)).1 := by
    refine (congrArg (fun d => (s.key.apply d).1) hrest).trans ?_
    rw [Keystream.apply_append, ← hopened]
    rfl
  have hwhole (h : x.left s rooms = []) : x.opened s rooms = (s.key.apply c).1 := by
    rw [happ, h]
    exact (List.append_nil _).symm
  refine ⟨happ ▸ List.prefix_append _ _, fun room => ?_, ?_, hwhole,
    fun hx room hr h => hwhole (x.rest_of_empty hx hr h)⟩
  · obtain ⟨as, hroom, -, hgained, -⟩ := x.read (s.reads x.supply rooms).2 room
    rw [hgained, Keystream.length_apply]
    exact hroom
  · rw [← Keystream.length_apply s.key c, happ, List.length_append, Keystream.length_apply]

variable {x rooms}

lemma Source.Opens.eq_of_length {y : Source c} {t : Stream y.State} {rooms' : List Nat} {plain : Bytes}
    (h : x.Opens s rooms plain) (h' : y.Opens t rooms' plain)
    (hl : (x.left s rooms).length = (y.left t rooms').length) : x.opened s rooms = y.opened t rooms' := by
  have hlen : (x.opened s rooms).length = (y.opened t rooms').length := by
    have hc := h.consumed
    have hc' := h'.consumed
    omega
  exact (List.prefix_of_prefix_length_le h.begun h'.begun (Nat.le_of_eq hlen)).eq_of_length hlen

end Reads

lemma Stream.ofText_eq {E : BlockFunction} {key iv : String} {k : Keystream} {σ : Type} (inner : σ)
    (h : Keystream.ofText E key iv = .ok k) : Stream.ofText E key iv inner = .ok ⟨k, inner⟩ := by
  rw [ofText, h]
  rfl

/-- Ciphertext can be opened exactly with a usable key and vector. Wherever it is read from, however much
comes at a time and however much room there is for it, the reads have opened the beginning of what is
opened at once, as much as they have taken of the ciphertext, and in the end all of it. So it does not
matter how they are split. -/
theorem opened_in_reads (E : BlockFunction) (key iv : String) (c : Bytes) :
    ((∃ plain, decrypt E key iv (Text.Base64.encode c) = .ok plain) ↔
      (∃ k, IsKey key k) ∧ ∃ v, IsVector iv v) ∧
    ∀ plain, decrypt E key iv (Text.Base64.encode c) = .ok plain →
      plain.length = c.length ∧
      (∀ x : Source c, ∃ s, Stream.ofText E key iv x.first = .ok s ∧ ∀ rooms, x.Opens s rooms plain) ∧
      ∀ (x y : Source c) (s : Stream x.State) (t : Stream y.State), Stream.ofText E key iv x.first = .ok s →
        Stream.ofText E key iv y.first = .ok t → ∀ rooms rooms',
          (x.left s rooms).length = (y.left t rooms').length → x.opened s rooms = y.opened t rooms' := by
  refine ⟨?_, fun plain h => ?_⟩
  · simp only [decrypt_encode_eq_ok, Keystream.ofText_eq_ok]
    constructor
    · rintro ⟨plain, s, ⟨k, v, hk, hv, -⟩, -⟩
      exact ⟨⟨k, hk⟩, v, hv⟩
    · rintro ⟨⟨k, hk⟩, v, hv⟩
      exact ⟨_, _, ⟨k, v, hk, hv, rfl⟩, rfl⟩
  · obtain ⟨k, hk, rfl⟩ := decrypt_encode_eq_ok.mp h
    refine ⟨k.length_apply c, fun x => ⟨_, Stream.ofText_eq _ hk, fun rooms => x.opens rooms rfl⟩, ?_⟩
    intro x y s t hs ht rooms rooms' hl
    cases (Stream.ofText_eq _ hk).symm.trans hs
    cases (Stream.ofText_eq _ hk).symm.trans ht
    exact (x.opens rooms rfl).eq_of_length (y.opens rooms' rfl) hl

def Source.scripted (script : List (Option Nat)) (c : Bytes) : Source c where
  State := List (Option Nat) × Bytes
  Failure := Unit
  supply room s :=
    match s with
    | (none :: script, bs) => (.error (), script, bs)
    | (some n :: script, bs) => (.ok (bs.take (min n room)), script, bs.drop (min n room))
    | ([], bs) => (.ok (bs.take room), [], bs.drop room)
  rest := Prod.snd
  gives {room s bs t} h := by
    rcases s with ⟨_ | ⟨_ | n, script⟩, bs'⟩ <;> cases h
    · exact ⟨List.length_take_le _ _, (List.take_append_drop _ _).symm⟩
    · exact ⟨Nat.le_trans (List.length_take_le _ _) (Nat.min_le_right _ _), (List.take_append_drop _ _).symm⟩
  fails {room s e t} h := by
    rcases s with ⟨_ | ⟨_ | n, script⟩, bs'⟩ <;> cases h
    rfl
  first := (script, c)
  rest_first := rfl

theorem opened_in_reads_sample :
    ∃ (plain : Bytes) (s : Stream (List (Option Nat) × Bytes)),
      decrypt Aes.encrypt " AAAAAAAAAAAAAAAAAAAAAA==" "/////////////////////w==\n"
        (Text.Base64.encode (List.replicate 40 1)) = .ok plain ∧
      plain.length = 40 ∧
      (Source.scripted [some 5, none, some 0, some 20] (List.replicate 40 1)).opened s
        [7, 7, 7, 16, 0, 100] = plain ∧
      (Source.scripted [] (List.replicate 40 1)).opened ⟨s.key, [], List.replicate 40 1⟩ [40] = plain := by
  obtain ⟨usable, opened⟩ :=
    opened_in_reads Aes.encrypt " AAAAAAAAAAAAAAAAAAAAAA==" "/////////////////////w==\n"
      (List.replicate 40 1)
  obtain ⟨plain, hp⟩ := usable.mpr
    ⟨⟨List.replicate 16 0, by decide, .inl rfl⟩, .ofNat (2 ^ 128 - 1), by rw [IsVector]; decide⟩
  obtain ⟨hl, hx, hxy⟩ := opened plain hp
  obtain ⟨k, hk, -⟩ := decrypt_encode_eq_ok.mp hp
  obtain ⟨s, hs, hopens⟩ := hx (.scripted [some 5, none, some 0, some 20] (List.replicate 40 1))
  cases (Stream.ofText_eq _ hk).symm.trans hs
  have hwhole := (hopens [7, 7, 7, 16, 0, 100]).whole rfl
  refine ⟨plain, _, hp, hl, hwhole, ?_⟩
  rw [← hwhole]
  exact hxy (.scripted [] _) (.scripted [some 5, none, some 0, some 20] _) _ _
    (Stream.ofText_eq _ hk) hs _ _ rfl

end DumpImport.Cipher
