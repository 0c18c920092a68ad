import DumpImport.Proofs.Text.Hex
import DumpImport.Web.Url
import Mathlib.Data.List.TakeDrop
import Mathlib.Data.List.TakeWhile

namespace DumpImport.Web

lemma span_separator {c : Char} {cs : List Char} (h : c ∉ cs) (r : List Char) :
    (cs ++ c :: r).span (· != c) = (cs, c :: r) := by
  have hcs : ∀ x ∈ cs, (x != c) = true := by
    intro x hx
    rw [bne_iff_ne]
    rintro rfl
    exact h hx
  rw [List.span_eq_takeWhile_dropWhile, List.takeWhile_append_of_pos hcs, List.dropWhile_append_of_pos hcs]
  simp

namespace Form

open Text

def isEncoded (c : Char) : Bool := c.toNat < 0x80 && c != '&' && c != '='

lemma isEncoded_upperDigit : ∀ n < 16, isEncoded (Hex.upperDigit n) = true := by decide

lemma plain_facts : ∀ n < 0x80, isPlain (.ofNat n) = true →
    isEncoded (Char.ofNat n) = true ∧ byteOf (Char.ofNat n) = .ofNat n ∧ n ≠ 0x25 ∧ n ≠ 0x2B := by
  decide

section Components

variable (b : UInt8)

lemma plain_byte {b : UInt8} (h : isPlain b = true) : isEncoded (Char.ofNat b.toNat) = true ∧
    byteOf (Char.ofNat b.toNat) = b ∧ b ≠ 0x25 ∧ b ≠ 0x2B := by
  have hb : b.toNat < 0x80 := by
    simp only [isPlain, Bool.and_eq_true, decide_eq_true_eq, UInt8.lt_iff_toNat_lt] at h
    exact h.1
  obtain ⟨he, hc, hp, hs⟩ := plain_facts b.toNat hb (by rwa [UInt8.ofNat_toNat])
  exact ⟨he, hc.trans UInt8.ofNat_toNat, fun h => hp (h ▸ rfl), fun h => hs (h ▸ rfl)⟩

lemma unescape_cons {b : UInt8} (h : b ≠ 0x25) (r : Bytes) : unescape (b :: r) = spaced b :: unescape r := by
  rcases r with _ | ⟨x, _ | ⟨y, r⟩⟩
  · rfl
  · rw [unescape]
    simp
  · rw [unescape, escape?, if_neg h]

lemma escape?_upper :
    escape? 0x25 (byteOf (Hex.upperDigit (b.toNat / 16)))
    (byteOf (Hex.upperDigit (b.toNat % 16))) = some b := by
  have hb := b.toNat_lt
  rw [escape?, if_pos rfl, Hex.value?_upperDigit (b.toNat / 16) (by omega),
    Hex.value?_upperDigit (b.toNat % 16) (by omega)]
  exact congrArg some (Hex.ofNat_nibbles b)

lemma unescape_encodeByte (r : Bytes) : unescape ((encodeByte b).map byteOf ++ r) = b :: unescape r := by
  rw [encodeByte]
  split_ifs with hs hp
  · subst hs
    exact unescape_cons (b := 0x2B) (by decide) r
  · obtain ⟨-, hc, hpercent, hplus⟩ := plain_byte hp
    rw [List.map_singleton, hc, List.singleton_append, unescape_cons hpercent, spaced, if_neg hplus]
  · change unescape (0x25 :: _ :: _ :: r) = _
    rw [unescape, escape?_upper]

lemma isEncoded_of_mem_encodeByte {c : Char} (h : c ∈ encodeByte b) : isEncoded c = true := by
  have hb := b.toNat_lt
  rw [encodeByte] at h
  split_ifs at h with hs hp
  · rw [List.mem_singleton.mp h]
    decide
  · rw [List.mem_singleton.mp h]
    exact (plain_byte hp).1
  · simp only [escaped, Hex.upper, List.mem_cons, List.not_mem_nil, or_false] at h
    rcases h with rfl | rfl | rfl
    · decide
    · exact isEncoded_upperDigit _ (by omega)
    · exact isEncoded_upperDigit _ (by omega)

variable {cs : List Char}

lemma isEncoded_of_mem {c : Char} (h : c ∈ encode cs) : isEncoded c = true := by
  obtain ⟨b, -, hc⟩ := List.mem_flatMap.mp h
  exact isEncoded_of_mem_encodeByte b hc

lemma separators_notMem_encode : '&' ∉ encode cs ∧ '=' ∉ encode cs :=
  ⟨fun h => absurd (isEncoded_of_mem h) (by decide), fun h => absurd (isEncoded_of_mem h) (by decide)⟩

lemma unescape_flatMap (bs : Bytes) : unescape ((bs.flatMap encodeByte).map byteOf) = bs := by
  induction bs with
  | nil => rfl
  | cons b bs ih => rw [List.flatMap_cons, List.map_append, unescape_encodeByte, ih]

lemma decode_encode (cs : List Char) : decode (encode cs) = String.ofList cs := by
  have hascii : ∀ c ∈ encode cs, c.toNat < 0x80 := by
    intro c hc
    have he := isEncoded_of_mem hc
    simp only [isEncoded, Bool.and_eq_true, decide_eq_true_eq] at he
    exact he.1.1
  rw [decode, encode_ascii hascii, encode, unescape_flatMap, Bytes.lossyText, Utf8.lossy_encode]

end Components

section Queries

variable (ps : List (String × String))

lemma readPair_pair (p : String × String) : readPair (pair p) = p := by
  rw [readPair, pair, span_separator separators_notMem_encode.2]
  simp only [List.tail_cons, decode_encode, String.ofList_toList]

lemma pair_ne_nil (p : String × String) : pair p ≠ [] := by
  simp [pair]

lemma notMem_pair (p : String × String) : '&' ∉ pair p := by
  simp only [pair, List.mem_append, List.mem_cons, not_or]
  exact ⟨separators_notMem_encode.1, by decide, separators_notMem_encode.1⟩

theorem pairs_query : pairs (query ps) = ps := by
  have hread : (ps.map pair).map readPair = ps := by
    rw [List.map_map]
    exact List.map_id'' (fun p => readPair_pair p) ps
  cases ps with
  | nil => rfl
  | cons p ps =>
    have hsplit : (query (p :: ps)).splitOn '&' = (p :: ps).map pair := by
      apply List.splitOn_intercalate
      · intro l hl
        obtain ⟨q, -, rfl⟩ := List.mem_map.mp hl
        exact notMem_pair q
      · exact List.cons_ne_nil _ _
    have hfilter : ((p :: ps).map pair).filter (!·.isEmpty) = (p :: ps).map pair := by
      rw [List.filter_eq_self]
      intro l hl
      obtain ⟨q, -, rfl⟩ := List.mem_map.mp hl
      simp [pair_ne_nil]
    rw [pairs, hsplit, hfilter, hread]

end Queries

end Form

lemma Url.addQuery_injective (u : Url) : Function.Injective u.addQuery := by
  intro ps ps' h
  have hq : Form.query ps = Form.query ps' := by
    have h := congrArg Url.query h
    simp only [addQuery, Option.some.injEq] at h
    split at h
    · exact h
    · exact h
    · exact List.cons_inj_right _ |>.mp (List.append_cancel_left h)
  rw [← Form.pairs_query ps, hq, Form.pairs_query]

section Targets

def received (target : String) : List Char × List (String × String) :=
  let (path, query) := target.toList.span (· != '?')
  (path, Form.pairs query.tail)

def written (name target : String) : List (List Char) :=
  let fields := ((target.toList.dropWhile (· != '?')).tail.splitOn '&').filter (!·.isEmpty)
  (fields.filter fun f => (Form.readPair f).1 = name).map fun f => (f.dropWhile (· != '=')).tail

lemma map_decode_written (name target : String) :
    (written name target).map Form.decode =
      ((received target).2.filter fun p => p.1 = name).map Prod.snd := by
  simp only [written, received, List.span_eq_takeWhile_dropWhile, Form.pairs, List.filter_map, List.map_map]
  refine List.map_congr_left fun f _ => ?_
  simp only [Function.comp_apply, Form.readPair, List.span_eq_takeWhile_dropWhile]

lemma received_addQuery {u : Url} (hq : u.query = none) (hp : '?' ∉ u.path) (ps : List (String × String)) :
    received (u.addQuery ps).target = (u.path, ps) := by
  have htarget : (u.addQuery ps).target.toList = u.path ++ '?' :: Form.query ps := by
    simp [Url.target, Url.addQuery, hq]
  rw [received, htarget, span_separator hp]
  simp only [List.tail_cons, Form.pairs_query]

end Targets

end DumpImport.Web
