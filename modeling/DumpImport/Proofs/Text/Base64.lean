import DumpImport.Proofs.Outcome
import DumpImport.Proofs.Text.Digits
import DumpImport.Text.Base64
import DumpImport.Text.Blank

namespace DumpImport.Text

lemma trimmed_of_none {cs : List Char} (h : ∀ c ∈ cs, isBlank c = false) : trimmed cs = cs := by
  have hd : ∀ ds : List Char, (∀ c ∈ ds, isBlank c = false) → ds.dropWhile isBlank = ds := by
    intro ds hds
    cases ds with
    | nil => rfl
    | cons d ds => simp [hds d (by simp)]
  rw [trimmed, dropTail, dropBlank, hd cs h, hd cs.reverse (by simpa using h), List.reverse_reverse]

namespace Base64

open Utf8

def symbolByte (n : Nat) : UInt8 := byteOf (symbol n)

lemma symbol_facts {n : Nat} (h : n < 64) :
    (symbol n).toNat < 0x80 ∧ isBlank (symbol n) = false ∧ value? (symbolByte n).toNat = some n ∧
      symbolByte n ≠ 0x3D := by
  revert n
  decide

lemma encode_symbol_cons {n : Nat} (h : n < 64) (cs : List Char) :
    Utf8.encode (symbol n :: cs) = symbolByte n :: Utf8.encode cs :=
  encode_cons_ascii (symbol_facts h).1 cs

def symbols : Bytes → List Char
  | a :: b :: c :: r =>
    symbol (a.toNat / 4) :: symbol (a.toNat % 4 * 16 + b.toNat / 16) ::
      symbol (b.toNat % 16 * 4 + c.toNat / 64) :: symbol (c.toNat % 64) :: symbols r
  | [a, b] =>
    [symbol (a.toNat / 4), symbol (a.toNat % 4 * 16 + b.toNat / 16), symbol (b.toNat % 16 * 4), '=']
  | [a] => [symbol (a.toNat / 4), symbol (a.toNat % 4 * 16), '=', '=']
  | [] => []

lemma encodeOnto_eq (bs : Bytes) (acc : List Char) : encodeOnto bs acc = (symbols bs).reverse ++ acc := by
  induction bs using symbols.induct generalizing acc with
  | case1 a b c r ih => simp [encodeOnto, symbols, ih]
  | case2 a b => rfl
  | case3 a => rfl
  | case4 => rfl

lemma encode_eq (bs : Bytes) : encode bs = String.ofList (symbols bs) := by
  rw [encode, encodeOnto_eq, List.append_nil, List.reverse_reverse]

lemma mem_symbols {bs : Bytes} {c : Char} (h : c ∈ symbols bs) : c = '=' ∨ ∃ n < 64, c = symbol n := by
  induction bs using symbols.induct with
  | case1 a b x r ih =>
    have ha := a.toNat_lt
    have hb := b.toNat_lt
    have hx := x.toNat_lt
    simp only [symbols, List.mem_cons] at h
    rcases h with rfl | rfl | rfl | rfl | h
    · exact .inr ⟨_, by omega, rfl⟩
    · exact .inr ⟨_, by omega, rfl⟩
    · exact .inr ⟨_, by omega, rfl⟩
    · exact .inr ⟨_, by omega, rfl⟩
    · exact ih h
  | case2 a b =>
    have ha := a.toNat_lt
    have hb := b.toNat_lt
    simp only [symbols, List.mem_cons, List.not_mem_nil, or_false] at h
    rcases h with rfl | rfl | rfl | rfl
    · exact .inr ⟨_, by omega, rfl⟩
    · exact .inr ⟨_, by omega, rfl⟩
    · exact .inr ⟨_, by omega, rfl⟩
    · exact .inl rfl
  | case3 a =>
    have ha := a.toNat_lt
    simp only [symbols, List.mem_cons, List.not_mem_nil, or_false] at h
    rcases h with rfl | rfl | rfl | rfl
    · exact .inr ⟨_, by omega, rfl⟩
    · exact .inr ⟨_, by omega, rfl⟩
    · exact .inl rfl
    · exact .inl rfl
  | case4 => cases h

lemma trim_encode (bs : Bytes) : trim (encode bs) = encode bs := by
  rw [trim, encode_eq, String.toList_ofList, trimmed_of_none]
  intro c hc
  rcases mem_symbols hc with rfl | ⟨n, hn, rfl⟩
  · decide
  · exact (symbol_facts hn).2.1

section Groups

variable (a b c : UInt8)

lemma byte_first : UInt8.ofNat (a.toNat / 4 * 4 + (a.toNat % 4 * 16 + b.toNat / 16) / 16) = a := by
  have hb := b.toNat_lt
  rw [show a.toNat / 4 * 4 + (a.toNat % 4 * 16 + b.toNat / 16) / 16 = a.toNat by omega, UInt8.ofNat_toNat]

lemma byte_second :
    UInt8.ofNat ((a.toNat % 4 * 16 + b.toNat / 16) % 16 * 16 + (b.toNat % 16 * 4 + c.toNat / 64) / 4) =
      b := by
  have hb := b.toNat_lt
  have hc := c.toNat_lt
  rw [show (a.toNat % 4 * 16 + b.toNat / 16) % 16 * 16 + (b.toNat % 16 * 4 + c.toNat / 64) / 4 = b.toNat by
    omega, UInt8.ofNat_toNat]

lemma byte_third : UInt8.ofNat ((b.toNat % 16 * 4 + c.toNat / 64) % 4 * 64 + c.toNat % 64) = c := by
  have hc := c.toNat_lt
  rw [show (b.toNat % 16 * 4 + c.toNat / 64) % 4 * 64 + c.toNat % 64 = c.toNat by omega, UInt8.ofNat_toNat]

end Groups

lemma encode_pad (cs : List Char) : Utf8.encode ('=' :: cs) = 0x3D :: Utf8.encode cs :=
  encode_cons_ascii (by decide) cs

lemma lastSymbols_symbol {n : Nat} (h : n < 64) (start : Nat) (r : Bytes) (i : Nat) (acc : List Nat) :
    lastSymbols start (symbolByte n :: r) i 0 acc = lastSymbols start r (i + 1) 0 (n :: acc) := by
  obtain ⟨-, -, hv, hp⟩ := symbol_facts h
  simp [lastSymbols, hv, hp]

lemma lastGroup_four {v w x y : Nat} (hv : v < 64) (hw : w < 64) (hx : x < 64) (hy : y < 64) (start : Nat) :
    lastGroup start [symbolByte v, symbolByte w, symbolByte x, symbolByte y] =
      .ok [UInt8.ofNat (v * 4 + w / 16), UInt8.ofNat (w % 16 * 16 + x / 4),
        UInt8.ofNat (x % 4 * 64 + y)] := by
  rw [lastGroup, lastSymbols_symbol hv, lastSymbols_symbol hw, lastSymbols_symbol hx, lastSymbols_symbol hy]
  simp [lastSymbols, bind, Except.bind]

lemma lastGroup_three {v w x : Nat} (hv : v < 64) (hw : w < 64) (hx : x < 64) (h : x % 4 = 0) (start : Nat) :
    lastGroup start [symbolByte v, symbolByte w, symbolByte x, 0x3D] =
      .ok [UInt8.ofNat (v * 4 + w / 16), UInt8.ofNat (w % 16 * 16 + x / 4)] := by
  rw [lastGroup, lastSymbols_symbol hv, lastSymbols_symbol hw, lastSymbols_symbol hx]
  simp [lastSymbols, bind, Except.bind, h]

lemma lastGroup_two {v w : Nat} (hv : v < 64) (hw : w < 64) (h : w % 16 = 0) (start : Nat) :
    lastGroup start [symbolByte v, symbolByte w, 0x3D, 0x3D] = .ok [UInt8.ofNat (v * 4 + w / 16)] := by
  rw [lastGroup, lastSymbols_symbol hv, lastSymbols_symbol hw]
  simp [lastSymbols, bind, Except.bind, h]

lemma groups_four {v w x y : Nat} (hv : v < 64) (hw : w < 64) (hx : x < 64) (hy : y < 64) {r : Bytes}
    (hr : r ≠ []) (i : Nat) (acc : Bytes) :
    groups (symbolByte v :: symbolByte w :: symbolByte x :: symbolByte y :: r) i acc =
      groups r (i + 4) (UInt8.ofNat (x % 4 * 64 + y) :: UInt8.ofNat (w % 16 * 16 + x / 4) ::
        UInt8.ofNat (v * 4 + w / 16) :: acc) := by
  obtain ⟨b, t, rfl⟩ := List.exists_cons_of_ne_nil hr
  rw [groups, (symbol_facts hv).2.2.1, (symbol_facts hw).2.2.1, (symbol_facts hx).2.2.1,
    (symbol_facts hy).2.2.1]

lemma groups_short {bs : Bytes} (h : bs.length ≤ 4) (i : Nat) (acc : Bytes) :
    groups bs i acc = (lastGroup i bs).map (acc.reverse ++ ·) := by
  match bs, h with
  | [], _ => rfl
  | [_], _ => rfl
  | [_, _], _ => rfl
  | [_, _, _], _ => rfl
  | [_, _, _, _], _ => rfl

lemma encode_symbols_cons (a b c : UInt8) (r : Bytes) :
    Utf8.encode (symbols (a :: b :: c :: r)) =
      symbolByte (a.toNat / 4) :: symbolByte (a.toNat % 4 * 16 + b.toNat / 16) ::
        symbolByte (b.toNat % 16 * 4 + c.toNat / 64) :: symbolByte (c.toNat % 64) ::
        Utf8.encode (symbols r) := by
  have ha := a.toNat_lt
  have hb := b.toNat_lt
  have hc := c.toNat_lt
  rw [symbols, encode_symbol_cons (by omega), encode_symbol_cons (by omega), encode_symbol_cons (by omega),
    encode_symbol_cons (by omega)]

lemma encode_symbols_two (a b : UInt8) :
    Utf8.encode (symbols [a, b]) =
      [symbolByte (a.toNat / 4), symbolByte (a.toNat % 4 * 16 + b.toNat / 16),
        symbolByte (b.toNat % 16 * 4), 0x3D] := by
  have ha := a.toNat_lt
  have hb := b.toNat_lt
  rw [symbols, encode_symbol_cons (by omega), encode_symbol_cons (by omega), encode_symbol_cons (by omega),
    encode_pad, encode_nil]

lemma encode_symbols_one (a : UInt8) :
    Utf8.encode (symbols [a]) =
      [symbolByte (a.toNat / 4), symbolByte (a.toNat % 4 * 16), 0x3D, 0x3D] := by
  have ha := a.toNat_lt
  rw [symbols, encode_symbol_cons (by omega), encode_symbol_cons (by omega),
    encode_pad, encode_pad, encode_nil]

lemma length_symbols (bs : Bytes) : (Utf8.encode (symbols bs)).length % 4 = 0 := by
  induction bs using symbols.induct with
  | case1 a b c r ih =>
    rw [encode_symbols_cons]
    simp only [List.length_cons]
    omega
  | case2 a b =>
    simp [encode_symbols_two]
  | case3 a =>
    simp [encode_symbols_one]
  | case4 => rfl

lemma encode_symbols_ne_nil {bs : Bytes} (h : bs ≠ []) : Utf8.encode (symbols bs) ≠ [] := by
  match bs, h with
  | [a], _ => simp [encode_symbols_one]
  | [a, b], _ => simp [encode_symbols_two]
  | a :: b :: c :: r, _ => simp [encode_symbols_cons]

lemma groups_symbols (bs : Bytes) (i : Nat) (acc : Bytes) :
    groups (Utf8.encode (symbols bs)) i acc = .ok (acc.reverse ++ bs) := by
  induction bs using symbols.induct generalizing i acc with
  | case1 a b c r ih =>
    have ha := a.toNat_lt
    have hb := b.toNat_lt
    have hc := c.toNat_lt
    rw [encode_symbols_cons]
    by_cases hr : r = []
    · subst hr
      rw [symbols, encode_nil, groups_short (by simp),
        lastGroup_four (by omega) (by omega) (by omega) (by omega), byte_first, byte_second, byte_third]
      rfl
    · rw [groups_four (by omega) (by omega) (by omega) (by omega) (encode_symbols_ne_nil hr), byte_first,
        byte_second, byte_third, ih]
      simp
  | case2 a b =>
    have ha := a.toNat_lt
    have hb := b.toNat_lt
    have h2 := byte_second a b 0
    rw [show (0 : UInt8).toNat / 64 = 0 from rfl, Nat.add_zero] at h2
    rw [encode_symbols_two, groups_short (by simp),
      lastGroup_three (by omega) (by omega) (by omega) (by omega), byte_first, h2]
    rfl
  | case3 a =>
    have ha := a.toNat_lt
    have h1 := byte_first a 0
    rw [show (0 : UInt8).toNat / 16 = 0 from rfl, Nat.add_zero] at h1
    rw [encode_symbols_one, groups_short (by simp), lastGroup_two (by omega) (by omega) (by omega), h1]
    rfl
  | case4 => simp [symbols, encode_nil, groups, lastGroup, lastSymbols, bind, Except.bind, Except.map]

theorem decode_encode (bs : Bytes) : decode (encode bs) = .ok bs := by
  have hs : strayLast (Utf8.encode (symbols bs)) = none := by
    rw [strayLast, length_symbols, if_neg (by decide)]
  rw [decode, Bytes.ofText, encode_eq, String.toList_ofList, decodeBytes, hs]
  exact groups_symbols bs 0 []

lemma symbolByte_of_value? {b : UInt8} {v : Nat} (h : value? b.toNat = some v) :
    v < 64 ∧ b = symbolByte v := by
  have hall : ∀ n < 256, ∀ v ∈ value? n, v < 64 ∧ UInt8.ofNat n = symbolByte v := by decide +kernel
  have := hall b.toNat b.toNat_lt v h
  rwa [UInt8.ofNat_toNat] at this

lemma lastSymbols_eq_ok {start i pad p : Nat} {bs : Bytes} {acc vs : List Nat}
    (h : lastSymbols start bs i pad acc = .ok (vs, p)) :
    ∃ ws q, vs = acc.reverse ++ ws ∧ p = pad + q ∧ bs = ws.map symbolByte ++ List.replicate q 0x3D ∧
      (∀ w ∈ ws, w < 64) ∧ (pad = 0 ∨ ws = []) := by
  induction bs generalizing i pad acc with
  | nil =>
    cases h
    exact ⟨[], 0, by simp⟩
  | cons b r ih =>
    rw [lastSymbols] at h
    split_ifs at h with hb hi hp
    · obtain ⟨ws, q, rfl, rfl, rfl, hw, he⟩ := ih h
      rcases he with he | rfl
      · cases he
      · exact ⟨[], q + 1, rfl, by omega, by simp [hb, List.replicate_succ], hw, .inr rfl⟩
    · cases hv : value? b.toNat with
      | none =>
        rw [hv] at h
        cases h
      | some v =>
        rw [hv] at h
        obtain ⟨ws, q, rfl, rfl, rfl, hw, he⟩ := ih h
        obtain ⟨hlt, rfl⟩ := symbolByte_of_value? hv
        exact ⟨v :: ws, q, by simp, rfl, rfl, List.forall_mem_cons.mpr ⟨hlt, hw⟩, .inl (by omega)⟩

section Symbols

variable {v w x y : Nat}

lemma toNat_first (hv : v < 64) (hw : w < 64) : (UInt8.ofNat (v * 4 + w / 16)).toNat = v * 4 + w / 16 := by
  rw [UInt8.toNat_ofNat', Nat.mod_eq_of_lt (by omega)]

lemma toNat_second (hx : x < 64) : (UInt8.ofNat (w % 16 * 16 + x / 4)).toNat = w % 16 * 16 + x / 4 := by
  rw [UInt8.toNat_ofNat', Nat.mod_eq_of_lt (by omega)]

lemma toNat_third (hy : y < 64) : (UInt8.ofNat (x % 4 * 64 + y)).toNat = x % 4 * 64 + y := by
  rw [UInt8.toNat_ofNat', Nat.mod_eq_of_lt (by omega)]

lemma encode_symbols_single (hv : v < 64) (hw : w < 64) (h : w % 16 = 0) :
    Utf8.encode (symbols [UInt8.ofNat (v * 4 + w / 16)]) = [symbolByte v, symbolByte w, 0x3D, 0x3D] := by
  rw [encode_symbols_one, toNat_first hv hw, show (v * 4 + w / 16) / 4 = v by omega,
    show (v * 4 + w / 16) % 4 * 16 = w by omega]

lemma encode_symbols_pair (hv : v < 64) (hw : w < 64) (hx : x < 64) (h : x % 4 = 0) :
    Utf8.encode (symbols [UInt8.ofNat (v * 4 + w / 16), UInt8.ofNat (w % 16 * 16 + x / 4)]) =
      [symbolByte v, symbolByte w, symbolByte x, 0x3D] := by
  rw [encode_symbols_two, toNat_first hv hw, toNat_second hx, show (v * 4 + w / 16) / 4 = v by omega,
    show (v * 4 + w / 16) % 4 * 16 + (w % 16 * 16 + x / 4) / 16 = w by omega,
    show (w % 16 * 16 + x / 4) % 16 * 4 = x by omega]

lemma encode_symbols_triple (hv : v < 64) (hw : w < 64) (hx : x < 64) (hy : y < 64) (r : Bytes) :
    Utf8.encode (symbols (UInt8.ofNat (v * 4 + w / 16) :: UInt8.ofNat (w % 16 * 16 + x / 4) ::
        UInt8.ofNat (x % 4 * 64 + y) :: r)) =
      symbolByte v :: symbolByte w :: symbolByte x :: symbolByte y :: Utf8.encode (symbols r) := by
  rw [encode_symbols_cons, toNat_first hv hw, toNat_second hx, toNat_third hy,
    show (v * 4 + w / 16) / 4 = v by omega,
    show (v * 4 + w / 16) % 4 * 16 + (w % 16 * 16 + x / 4) / 16 = w by omega,
    show (w % 16 * 16 + x / 4) % 16 * 4 + (x % 4 * 64 + y) / 64 = x by omega,
    show (x % 4 * 64 + y) % 64 = y by omega]

end Symbols

lemma lastGroup_eq_ok {start : Nat} {bs r : Bytes} (hl : bs.length ≤ 4) (h : lastGroup start bs = .ok r) :
    bs = Utf8.encode (symbols r) := by
  obtain ⟨⟨vs, pad⟩, hs, h⟩ := bind_eq_ok.mp h
  obtain ⟨ws, q, hvs, hpad, hbs, hw, -⟩ := lastSymbols_eq_ok hs
  rw [List.reverse_nil, List.nil_append] at hvs
  rw [Nat.zero_add] at hpad
  subst hvs hpad hbs
  simp only [List.length_append, List.length_map, List.length_replicate] at hl
  simp only at h
  split_ifs at h with hshort hfull
  match vs, hw with
  | [], _ =>
    obtain rfl : pad = 0 := by simpa using hshort
    cases h
    rfl
  | [v], _ =>
    simp at hshort
  | [v, w], hw =>
    obtain rfl : pad = 2 := by
      simp only [List.length_cons, List.length_nil] at hl hfull
      omega
    simp only at h
    split_ifs at h with hz
    cases h
    exact (encode_symbols_single (hw v (by simp)) (hw w (by simp)) hz).symm
  | [v, w, x], hw =>
    obtain rfl : pad = 1 := by
      simp only [List.length_cons, List.length_nil] at hl hfull
      omega
    simp only at h
    split_ifs at h with hz
    cases h
    exact (encode_symbols_pair (hw v (by simp)) (hw w (by simp)) (hw x (by simp)) hz).symm
  | [v, w, x, y], hw =>
    obtain rfl : pad = 0 := by
      simp only [List.length_cons, List.length_nil] at hl
      omega
    cases h
    exact (encode_symbols_triple (hw v (by simp)) (hw w (by simp)) (hw x (by simp)) (hw y (by simp)) []).symm
  | _ :: _ :: _ :: _ :: _ :: _, _ =>
    simp only [List.length_cons] at hl
    omega

lemma groups_eq_ok {bs acc out : Bytes} {i : Nat} (h : groups bs i acc = .ok out) :
    ∃ r, out = acc.reverse ++ r ∧ bs = Utf8.encode (symbols r) := by
  fun_induction groups bs i acc with
  | case1 => cases h
  | case2 => cases h
  | case3 => cases h
  | case4 => cases h
  | case5 a b c d e t i acc v w x y fourth third second first ih =>
    obtain ⟨r, rfl, hr⟩ := ih h
    obtain ⟨hv, rfl⟩ := symbolByte_of_value? first
    obtain ⟨hw, rfl⟩ := symbolByte_of_value? second
    obtain ⟨hx, rfl⟩ := symbolByte_of_value? third
    obtain ⟨hy, rfl⟩ := symbolByte_of_value? fourth
    rw [hr, ← encode_symbols_triple hv hw hx hy r]
    exact ⟨_, by simp only [List.reverse_cons, List.append_assoc, List.cons_append, List.nil_append], rfl⟩
  | case6 bs i acc hn =>
    obtain ⟨r, hr, rfl⟩ := map_eq_ok.mp h
    have hl : bs.length ≤ 4 := by
      match bs, hn with
      | [], _ | [_], _ | [_, _], _ | [_, _, _], _ | [_, _, _, _], _ => simp
      | a :: b :: c :: d :: e :: t, hn => exact absurd rfl (hn a b c d e t)
    exact ⟨r, rfl, lastGroup_eq_ok hl hr⟩

theorem decode_eq_ok_iff {s : String} {bs : Bytes} : decode s = .ok bs ↔ s = encode bs := by
  refine ⟨fun h => ?_, fun h => h ▸ decode_encode bs⟩
  rw [decode, decodeBytes] at h
  split at h
  · cases h
  · obtain ⟨r, hb, hr⟩ := groups_eq_ok h
    rw [List.reverse_nil, List.nil_append] at hb
    have hs : some s.toList = some (symbols r) := by
      rw [← decode?_encode, ← decode?_encode, ← hr, Bytes.ofText]
    rw [hb, encode_eq, ← Option.some.inj hs, String.ofList_toList]

end Base64

end DumpImport.Text
