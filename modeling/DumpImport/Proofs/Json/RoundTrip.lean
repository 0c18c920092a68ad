import DumpImport.Proofs.Json.Numbers
import DumpImport.Proofs.Json.Strings
import DumpImport.Proofs.Json.Values

namespace DumpImport.Json

open Text Text.Utf8

lemma skipBlank_cons {b : UInt8} (h : isBlank b = false) (r : Bytes) : skipBlank (b :: r) = b :: r := by
  simp [skipBlank, h]

lemma Gives.map {α β : Type} {read : Reader α} {t : Bytes} {o : Option α} (h : Gives read t o) (f : α → β) :
    Gives (fun bs => (read bs).map fun (a, r) => (f a, r)) t (o.map f) := by
  cases o with
  | none =>
    intro rest hr
    obtain ⟨e, he⟩ := h rest hr
    exact ⟨e, by simp only [he, Except.map]⟩
  | some a =>
    intro rest hr
    simp only [h rest hr, Except.map]

lemma Gives.of_forall {α : Type} {read' : Reader α} {t : Bytes} {o : Option α}
    (h : ∀ rest, Ends rest → ∃ read : Reader α, Gives read t o ∧ read' (t ++ rest) = read (t ++ rest)) :
    Gives read' t o := by
  cases o with
  | none =>
    intro rest hr
    obtain ⟨read, hg, he⟩ := h rest hr
    rw [he]
    exact hg rest hr
  | some a =>
    intro rest hr
    obtain ⟨read, hg, he⟩ := h rest hr
    rw [he]
    exact hg rest hr

section Sequences

variable {A α : Type}

def joined (text : A → List Char) : List A → List Char
  | [] => []
  | a :: as => text a ++ as.flatMap fun a => ',' :: text a

def Shape.Opens (s : Shape) (bs : Bytes) : Prop :=
  ∃ b r, bs = b :: r ∧ isBlank b = false ∧ b ≠ s.close ∧ (s.quoted = true → b = 0x22)

variable {s : Shape} (hs : s = .list ∨ s = .object)

lemma Shape.next_first {bs : Bytes} (h : s.Opens bs) (rest : Bytes) :
    s.next true (bs ++ rest) = .ok (true, bs ++ rest) := by
  obtain ⟨b, r, rfl, hb, hc, hq⟩ := h
  have hi : ¬ (s.quoted = true ∧ b ≠ 0x22) := fun h => h.2 (hq h.1)
  rw [List.cons_append, Shape.next, skipBlank_cons hb]
  simp only [if_neg hc, if_true, Shape.item, if_neg hi]
  rfl

include hs

lemma Shape.close_facts : isBlank s.close = false ∧ s.close ≠ 0x2C ∧ ∀ r, Ends (s.close :: r) := by
  rcases hs with rfl | rfl
  · exact ⟨by decide, by decide, fun r => ends_cons (by decide) r⟩
  · exact ⟨by decide, by decide, fun r => ends_cons (by decide) r⟩

lemma Shape.next_close (first : Bool) (r : Bytes) :
    s.next first (s.close :: r) = .ok (false, s.close :: r) := by
  simp [Shape.next, skipBlank_cons (Shape.close_facts hs).1]

lemma Shape.next_after {bs : Bytes} (h : s.Opens bs) (rest : Bytes) :
    s.next false (0x2C :: (bs ++ rest)) = .ok (true, bs ++ rest) := by
  obtain ⟨b, r, rfl, hb, hc, hq⟩ := h
  have hi : ¬ (s.quoted = true ∧ b ≠ 0x22) := fun h => h.2 (hq h.1)
  have hx : (0x2C : UInt8) ≠ s.close := (Shape.close_facts hs).2.1.symm
  rw [List.cons_append, Shape.next, skipBlank_cons (by decide)]
  simp only [if_neg hx, Bool.false_eq_true, if_false, if_true, skipBlank_cons hb, if_neg hc, Shape.item,
    if_neg hi]
  rfl

variable {text : A → List Char} {item : Reader α} {out : A → Option α}

def Shape.tail (s : Shape) (text : A → List Char) (as : List A) : Bytes :=
  encode (as.flatMap fun a => ',' :: text a) ++ [s.close]

omit hs in
lemma Shape.tail_cons (a : A) (as : List A) :
    s.tail text (a :: as) = 0x2C :: (encode (text a) ++ s.tail text as) := by
  rw [tail, List.flatMap_cons, List.cons_append, encode_cons_ascii (by decide), encode_append,
    List.cons_append, List.append_assoc]
  rfl

omit hs in
lemma Shape.length_tail (as : List A) : as.length < (s.tail text as).length := by
  induction as with
  | nil => exact Nat.zero_lt_one
  | cons a as ih =>
    rw [tail_cons, List.length_cons, List.length_cons, List.length_append]
    omega

lemma Shape.ends_tail (as : List A) (rest : Bytes) : Ends (s.tail text as ++ rest) := by
  cases as with
  | nil => exact (close_facts hs).2.2 rest
  | cons a as =>
    rw [tail_cons]
    exact ends_cons (by decide) _

def Shape.itemThen (s : Shape) (item : Reader α) (n : Nat) (acc : List α) : Reader (List α) := fun bs =>
  match item bs with
  | .error f => .error f
  | .ok (a, r) => s.items item n false (a :: acc) r

lemma Shape.itemThen_gives {a : A} {as : List A} (ha : Gives item (encode (text a)) (out a)) {n : Nat}
    {acc : List α}
    (has : ∀ b, Gives (s.items item n false (b :: acc)) (s.tail text as)
      ((as.mapM out).map ((b :: acc).reverse ++ ·))) :
    Gives (s.itemThen item n acc) (encode (text a) ++ s.tail text as)
      (((a :: as).mapM out).map (acc.reverse ++ ·)) := by
  rw [List.mapM_cons]
  cases hb : out a with
  | none =>
    intro rest _
    rw [hb] at ha
    obtain ⟨f, hf⟩ := ha _ (ends_tail hs as rest)
    exact ⟨f, by rw [List.append_assoc, itemThen, hf]⟩
  | some b =>
    rw [hb] at ha
    have hi : Gives (s.itemThen item n acc) (encode (text a) ++ s.tail text as)
        ((as.mapM out).map ((b :: acc).reverse ++ ·)) :=
      (has b).of_eq fun rest _ => by rw [List.append_assoc, itemThen, ha _ (ends_tail hs as rest)]
    cases hm : as.mapM out with
    | none => rwa [hm] at hi
    | some l => simpa [hm] using hi

lemma Shape.items_gives {as : List A} (hg : ∀ a ∈ as, Gives item (encode (text a)) (out a))
    (ho : ∀ a ∈ as, s.Opens (encode (text a))) {n : Nat} (hn : as.length < n) (acc : List α) :
    Gives (s.items item n false acc) (s.tail text as) ((as.mapM out).map (acc.reverse ++ ·)) := by
  induction as generalizing n acc with
  | nil =>
    intro rest _
    obtain ⟨n, rfl⟩ := Nat.exists_eq_add_of_lt hn
    simp [items, tail, next_close hs, encode_nil]
  | cons a as ih =>
    obtain ⟨n, rfl⟩ := Nat.exists_eq_add_of_lt (Nat.zero_lt_of_lt hn)
    rw [List.forall_mem_cons] at hg ho
    have hn' : as.length < 0 + n := by
      rw [List.length_cons] at hn
      omega
    refine (itemThen_gives hs hg.1 fun b => ih hg.2 ho.2 hn' (b :: acc)).of_eq fun rest _ => ?_
    rw [tail_cons, List.cons_append, List.append_assoc, items, next_after hs ho.1]
    rfl

lemma Shape.all_gives {as : List A} (hg : ∀ a ∈ as, Gives item (encode (text a)) (out a))
    (ho : ∀ a ∈ as, s.Opens (encode (text a))) :
    Gives (s.all item) (encode (joined text as) ++ [s.close]) (as.mapM out) := by
  cases as with
  | nil =>
    intro rest _
    simp [joined, all, items, next_close hs, encode_nil]
  | cons a as =>
    rw [List.forall_mem_cons] at hg ho
    have ht : encode (joined text (a :: as)) ++ [s.close] = encode (text a) ++ s.tail text as := by
      rw [joined, encode_append, List.append_assoc, ← tail]
    rw [ht]
    refine Gives.of_forall fun rest _ =>
      ⟨s.itemThen item (encode (text a) ++ s.tail text as ++ rest).length [], ?_, ?_⟩
    · have hn : as.length < (encode (text a) ++ s.tail text as ++ rest).length := by
        have : as.length < (s.tail text as).length := length_tail as
        simp only [List.length_append]
        omega
      have hi : Gives (s.itemThen item _ []) _ (((a :: as).mapM out).map ([].reverse ++ ·)) :=
        itemThen_gives hs hg.1 fun b => items_gives hs hg.2 ho.2 hn [b]
      simpa using hi
    · rw [all, items, List.append_assoc, next_first ho.1]
      rfl

end Sequences

section Marks

lemma value_null (d : Nat) (r : Bytes) : value d (0x6E :: r) = literal [0x75, 0x6C, 0x6C] .null r := by
  cases d <;> rfl

lemma value_true (d : Nat) (r : Bytes) : value d (0x74 :: r) = literal [0x72, 0x75, 0x65] (.bool true) r := by
  cases d <;> rfl

lemma value_false (d : Nat) (r : Bytes) :
    value d (0x66 :: r) = literal [0x61, 0x6C, 0x73, 0x65] (.bool false) r := by
  cases d <;> rfl

lemma value_minus (d : Nat) (r : Bytes) :
    value d (0x2D :: r) = (number true r).map fun (n, r) => (.number n, r) := by
  cases d <;> rfl

lemma not_blank_of_isDigit {b : UInt8} (h : isDigit b = true) : isBlank b = false ∧ b ≠ 0x5D := by
  have hd : 0x30 ≤ b.toNat ∧ b.toNat ≤ 0x39 := by
    simpa [isDigit, UInt8.le_iff_toNat_le] using h
  simp only [isBlank, Bool.or_eq_false_iff, decide_eq_false_iff_not]
  refine ⟨⟨⟨⟨?_, ?_⟩, ?_⟩, ?_⟩, ?_⟩ <;> (rintro rfl; revert hd; decide)

lemma value_digit (d : Nat) {b : UInt8} (h : isDigit b = true) (r : Bytes) :
    value d (b :: r) = (number false (b :: r)).map fun (n, r) => (.number n, r) := by
  have hd : 0x30 ≤ b.toNat ∧ b.toNat ≤ 0x39 := by
    simpa [isDigit, UInt8.le_iff_toNat_le] using h
  have hn (c : UInt8) (hc : ¬ (0x30 ≤ c.toNat ∧ c.toNat ≤ 0x39)) : b ≠ c := by
    rintro rfl
    exact hc hd
  rw [value, skipBlank_cons (not_blank_of_isDigit h).1]
  simp only [if_neg (hn 0x6E (by decide)), if_neg (hn 0x74 (by decide)), if_neg (hn 0x66 (by decide)),
    if_neg (hn 0x2D (by decide)), h, if_true]

lemma value_quote (d : Nat) (r : Bytes) :
    value d (0x22 :: r) = (string r).map fun (s, r) => (.string s, r) := by
  cases d <;> rfl

lemma value_bracket (d : Nat) (r : Bytes) :
    value (d + 1) (0x5B :: r) = (Shape.list.all (value d) r).map fun (vs, r) => (.array vs, r) :=
  rfl

lemma value_bracket_zero (r : Bytes) : value 0 (0x5B :: r) = .error (.next .tooDeep (0x5B :: r)) :=
  rfl

lemma value_brace (d : Nat) (r : Bytes) :
    value (d + 1) (0x7B :: r) = (Shape.object.all (member (value d)) r).map fun (ms, r) =>
      (.object (Object.ofMembers ms), r) :=
  rfl

lemma value_brace_zero (r : Bytes) : value 0 (0x7B :: r) = .error (.next .tooDeep (0x7B :: r)) :=
  rfl

end Marks

section Values

lemma encode_numeral_cons {t : List Char} (h : IsNumeral t) :
    ∃ b r, encode t = b :: r ∧ isDigit b = true := by
  obtain ⟨w, f, x, rfl, hw, -⟩ := h
  obtain ⟨b, r, hb, hd⟩ := encode_digits_cons hw
  exact ⟨b, r ++ encode (f ++ x), by rw [encode_append, hb, List.cons_append], hd⟩

lemma Number.render_eq (n : Number) : ∃ negative t, n.render = (if negative then '-' :: t else t) ∧
    IsNumeral t ∧ Gives (number negative) (encode t) n.reread? := by
  cases n with
  | int i =>
    refine ⟨decide (i.val < 0), decimalDigits i.val.natAbs, by simp [render], ?_, number_int i (by simp)⟩
    exact ⟨decimalDigits i.val.natAbs, [], [], by simp, isDigits_decimalDigits _, .inl rfl, .inl rfl⟩
  | double x =>
    have ht := isNumeral_text Binary64.pointStyle x.mag.shortest
    obtain ⟨o, ho⟩ := number_gives x.negative ht
    refine ⟨x.negative, _, rfl, ht, ?_⟩
    cases o with
    | none =>
      obtain ⟨f, hf⟩ := ho [] ends_nil
      rw [List.append_nil] at hf
      rwa [reread?, hf]
    | some a =>
      have hf := ho [] ends_nil
      rw [List.append_nil] at hf
      rwa [reread?, hf]

lemma value_number (d : Nat) (n : Number) :
    Gives (value d) (encode n.render) (n.reread?.map .number) := by
  obtain ⟨negative, t, hr, ht, hn⟩ := n.render_eq
  rw [hr]
  cases negative with
  | true =>
    refine (hn.map Value.number).of_eq fun rest _ => ?_
    rw [if_pos rfl, encode_cons_ascii (by decide)]
    exact value_minus d _
  | false =>
    refine (hn.map Value.number).of_eq fun rest _ => ?_
    obtain ⟨b, r, hb, hd⟩ := encode_numeral_cons ht
    rw [if_neg Bool.false_ne_true, hb]
    exact value_digit d hd _

lemma renderItems_eq (vs : List Value) : renderItems vs = joined Value.render vs := by
  induction vs with
  | nil => rfl
  | cons v vs ih =>
    cases vs with
    | nil => simp [renderItems, joined]
    | cons w vs => rw [renderItems, ih, joined, joined, List.flatMap_cons, List.cons_append]

def memberText (m : String × Value) : List Char := renderString m.1 ++ ':' :: m.2.render

lemma renderMembers_eq (ms : Object) : renderMembers ms = joined memberText ms := by
  induction ms with
  | nil => rfl
  | cons m ms ih =>
    obtain ⟨k, v⟩ := m
    cases ms with
    | nil => simp [renderMembers, joined, memberText]
    | cons n ms =>
      rw [renderMembers, ih, joined, joined, List.flatMap_cons, List.cons_append]
      simp [memberText]

lemma encode_memberText (m : String × Value) :
    encode (memberText m) =
      0x22 :: (encode (m.1.toList.flatMap escapeChar) ++ 0x22 :: 0x3A :: encode m.2.render) := by
  rw [memberText, encode_append, encode_renderString, encode_cons_ascii (by decide), List.cons_append,
    List.append_assoc]
  rfl

lemma opens_memberText (m : String × Value) : Shape.object.Opens (encode (memberText m)) :=
  ⟨_, _, encode_memberText m, by decide, by decide, fun _ => rfl⟩

lemma member_gives {read : Reader α} {m : String × Value} {o : Option α}
    (h : Gives read (encode m.2.render) o) :
    Gives (member read) (encode (memberText m)) (o.map (m.1, ·)) := by
  have hk (rest : Bytes) : key (encode (memberText m) ++ rest) = .ok (m.1, encode m.2.render ++ rest) := by
    rw [encode_memberText, key, List.cons_append, List.tail_cons, List.append_assoc, List.cons_append,
      string_renderString]
    rfl
  cases o with
  | none =>
    intro rest hr
    obtain ⟨f, hf⟩ := h rest hr
    exact ⟨f, by simp only [member, hk, bind, Except.bind, hf]⟩
  | some a =>
    intro rest hr
    simp only [member, hk, bind, Except.bind, h rest hr]

lemma opens_render (v : Value) : Shape.list.Opens (encode v.render) := by
  have hq : Shape.list.quoted = true → ∀ b : UInt8, b = 0x22 := fun h => nomatch h
  cases v with
  | null => exact ⟨_, _, encode_cons_ascii (by decide) _, by decide, by decide, fun h => hq h _⟩
  | bool b =>
    cases b with
    | true => exact ⟨_, _, encode_cons_ascii (by decide) _, by decide, by decide, fun h => hq h _⟩
    | false => exact ⟨_, _, encode_cons_ascii (by decide) _, by decide, by decide, fun h => hq h _⟩
  | number n =>
    obtain ⟨negative, t, hr, ht, -⟩ := n.render_eq
    cases negative with
    | true =>
      exact ⟨_, _, by rw [Value.render, hr]; exact encode_cons_ascii (by decide) _,
        by decide, by decide, fun h => hq h _⟩
    | false =>
      obtain ⟨b, r, hb, hd⟩ := encode_numeral_cons ht
      obtain ⟨hk, hc⟩ := not_blank_of_isDigit hd
      exact ⟨b, r, by rw [Value.render, hr]; exact hb, hk, hc, fun h => hq h _⟩
  | string s => exact ⟨_, _, encode_renderString s, by decide, by decide, fun h => hq h _⟩
  | array vs => exact ⟨_, _, encode_cons_ascii (by decide) _, by decide, by decide, fun h => hq h _⟩
  | object ms => exact ⟨_, _, encode_cons_ascii (by decide) _, by decide, by decide, fun h => hq h _⟩

lemma encode_array (vs : List Value) :
    encode (Value.array vs).render = 0x5B :: (encode (joined Value.render vs) ++ [0x5D]) := by
  rw [Value.render, List.cons_append, encode_cons_ascii (by decide), encode_append, renderItems_eq]
  rfl

lemma encode_object (ms : Object) :
    encode (Value.object ms).render = 0x7B :: (encode (joined memberText ms) ++ [0x7D]) := by
  rw [Value.render, List.cons_append, encode_cons_ascii (by decide), encode_append, renderMembers_eq]
  rfl

lemma literal_gives (w : List UInt8) (v : Value) : Gives (literal w v) w (some v) := by
  intro rest _
  induction w with
  | nil => rfl
  | cons b w ih => rw [List.cons_append, literal, if_pos rfl, ih]

theorem value_gives {v : Value} (hk : v.Keyed) (d : Nat) :
    Gives (value d) (encode v.render) (v.reread? d) := by
  induction v using Value.induct generalizing d with
  | null => exact (literal_gives _ _).of_eq fun rest _ => value_null d _
  | bool b =>
    cases b with
    | true => exact (literal_gives _ _).of_eq fun rest _ => value_true d _
    | false => exact (literal_gives _ _).of_eq fun rest _ => value_false d _
  | number n => exact value_number d n
  | string s =>
    intro rest _
    rw [Value.render, encode_renderString, List.cons_append, value_quote, List.append_assoc,
      List.singleton_append, string_renderString]
    rfl
  | array vs ih =>
    rw [encode_array]
    cases d with
    | zero => exact fun rest _ => ⟨_, value_bracket_zero _⟩
    | succ d =>
      have hv := holdsItems_iff.mp hk
      have hs := Shape.all_gives (.inl rfl) (fun v h => ih v h (hv v h) d) fun v _ => opens_render v
      rw [Value.reread?, rereadItems?_eq]
      exact (hs.map Value.array).of_eq fun rest _ => value_bracket d _
  | object ms ih =>
    rw [encode_object]
    cases d with
    | zero => exact fun rest _ => ⟨_, value_brace_zero _⟩
    | succ d =>
      have hv := holdsMembers_iff.mp hk.2
      have hs := Shape.all_gives (.inr rfl) (fun m h => member_gives (ih m h (hv m h) d)) fun m _ =>
        opens_memberText m
      have ho : (rereadMembers? ms d).map Value.object =
          (rereadMembers? ms d).map fun ms => .object (Object.ofMembers ms) := by
        cases hm : rereadMembers? ms d with
        | none => rfl
        | some o =>
          have hn : (Object.keys o).Nodup := keys_rereadMembers? hm ▸ hk.1
          rw [Option.map_some, Option.map_some, Object.ofMembers_of_nodup hn]
      rw [Value.reread?, ho, rereadMembers?_eq]
      exact (hs.map fun ms => Value.object (Object.ofMembers ms)).of_eq fun rest _ => value_brace d _

theorem parse_compact {v w : Value} (hk : v.Keyed) :
    parse v.compact = .ok w ↔ v.reread? maxDepth = some w := by
  have ht : parse v.compact = whole (value maxDepth) (encode v.render ++ []) := by
    rw [parse, parseBytes, Bytes.ofText, Value.compact, String.toList_ofList, List.append_nil]
  have hg := value_gives hk maxDepth
  rw [ht, whole]
  cases hr : v.reread? maxDepth with
  | none =>
    rw [hr] at hg
    obtain ⟨f, hf⟩ := hg [] ends_nil
    rw [hf]
    simp
  | some u =>
    rw [hr] at hg
    rw [hg [] ends_nil]
    simp [atEnd, skipBlank]

theorem encode_render_injective {v w : Value} (hv : v.Keyed) (hw : w.Keyed) (wv : v.Whole) (ww : w.Whole)
    (h : encode v.render = encode w.render) : v = w := by
  have first := value_gives hv (max v.depth w.depth)
  have second := value_gives hw (max v.depth w.depth)
  rw [Value.reread?_whole wv, if_pos (Nat.le_max_left _ _)] at first
  rw [Value.reread?_whole ww, if_pos (Nat.le_max_right _ _)] at second
  have read_v := first [] ends_nil
  have read_w := second [] ends_nil
  rw [h] at read_v
  cases read_v.symm.trans read_w
  rfl

end Values

end DumpImport.Json
