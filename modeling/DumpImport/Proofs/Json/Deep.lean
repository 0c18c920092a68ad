import DumpImport.Proofs.Json.Nesting

namespace DumpImport.Json

open Text Text.Utf8

/-- Whatever follows the text, it is too deep with so many of its bytes unread. -/
def TooDeep {α : Type} (read : Reader α) (t : Bytes) (n : Nat) : Prop :=
  ∀ rest, Ends rest → read (t ++ rest) = .error ⟨.tooDeep, n + rest.length⟩

lemma TooDeep.map {α β : Type} {read : Reader α} {t : Bytes} {n : Nat} (h : TooDeep read t n) (f : α → β) :
    TooDeep (fun bs => (read bs).map fun (a, r) => (f a, r)) t n := by
  intro rest hr
  simp only [h rest hr, Except.map]

lemma locate_append (front back : Bytes) (c : Cause) (n : Nat) :
    Failure.locate (front ++ back) ⟨c, n + back.length⟩ = Failure.locate front ⟨c, n⟩ := by
  have ht : (front ++ back).take (front.length - n) = front.take (front.length - n) :=
    List.take_append_of_le_length (Nat.sub_le _ _)
  simp only [Failure.locate, List.length_append, Nat.add_sub_add_right, ht]

section Sequences

variable {A α : Type} {s : Shape} (hs : s = .list ∨ s = .object) {text : A → List Char} {item : Reader α}
  {k n : Nat} {acc : List α}

include hs

lemma Shape.itemThen_deep {a : A} (ha : TooDeep item (encode (text a)) n) (as : List A) :
    TooDeep (s.itemThen item k acc) (encode (text a) ++ s.tail text as) (n + (s.tail text as).length) := by
  intro rest _
  rw [List.append_assoc, itemThen, ha _ (ends_tail hs as rest), List.length_append, Nat.add_assoc]

lemma Shape.itemThen_reads {a : A} {b : α} (ha : Gives item (encode (text a)) (some b)) {as : List A}
    (h : TooDeep (s.items item k false (b :: acc)) (s.tail text as) n) :
    TooDeep (s.itemThen item k acc) (encode (text a) ++ s.tail text as) n := by
  intro rest hr
  rw [List.append_assoc, itemThen, ha _ (ends_tail hs as rest)]
  exact h rest hr

lemma Shape.items_cons {a : A} (ho : s.Opens (encode (text a))) {as : List A}
    (h : TooDeep (s.itemThen item k acc) (encode (text a) ++ s.tail text as) n) :
    TooDeep (s.items item (k + 1) false acc) (s.tail text (a :: as)) n := by
  intro rest hr
  rw [← h rest hr, tail_cons, List.cons_append, List.append_assoc, items, next_after hs ho]
  rfl

variable {l r : List A} {a : A}

lemma Shape.items_deep (ho : ∀ x ∈ l ++ a :: r, s.Opens (encode (text x)))
    (hl : ∀ x ∈ l, ∃ b, Gives item (encode (text x)) (some b)) (ha : TooDeep item (encode (text a)) n)
    (hk : l.length < k) (acc : List α) :
    TooDeep (s.items item k false acc) (s.tail text (l ++ a :: r)) (n + (s.tail text r).length) := by
  induction l generalizing k acc with
  | nil =>
    obtain ⟨k, rfl⟩ := Nat.exists_eq_add_one_of_ne_zero (Nat.ne_of_gt hk)
    exact items_cons hs (ho a List.mem_cons_self) (itemThen_deep hs ha r)
  | cons x l ih =>
    obtain ⟨k, rfl⟩ := Nat.exists_eq_add_one_of_ne_zero (Nat.ne_of_gt (Nat.zero_lt_of_lt hk))
    rw [List.cons_append, List.forall_mem_cons] at ho
    rw [List.forall_mem_cons] at hl
    obtain ⟨b, hb⟩ := hl.1
    exact items_cons hs ho.1 (itemThen_reads hs hb (ih ho.2 hl.2 (Nat.lt_of_succ_lt_succ hk) (b :: acc)))

lemma Shape.all_deep (ho : ∀ x ∈ l ++ a :: r, s.Opens (encode (text x)))
    (hl : ∀ x ∈ l, ∃ b, Gives item (encode (text x)) (some b)) (ha : TooDeep item (encode (text a)) n) :
    TooDeep (s.all item) (encode (joined text (l ++ a :: r)) ++ [s.close]) (n + (s.tail text r).length) := by
  have hfirst {x : A} {as : List A} {N : Nat} (hx : s.Opens (encode (text x)))
      (h : ∀ k, as.length < k → TooDeep (s.itemThen item k []) (encode (text x) ++ s.tail text as) N) :
      TooDeep (s.all item) (encode (joined text (x :: as)) ++ [s.close]) N := by
    have ht : encode (joined text (x :: as)) ++ [s.close] = encode (text x) ++ s.tail text as := by
      rw [joined, encode_append, List.append_assoc, ← tail]
    intro rest hr
    have hlen : as.length < (s.tail text as).length := length_tail as
    have hk : as.length < (encode (text x) ++ s.tail text as ++ rest).length := by
      simp only [List.length_append]
      omega
    rw [ht, ← h _ hk rest hr, all, items, List.append_assoc, next_first hx]
    rfl
  cases l with
  | nil => exact hfirst (ho a List.mem_cons_self) fun k _ => itemThen_deep hs ha r
  | cons x l =>
    rw [List.cons_append, List.forall_mem_cons] at ho
    rw [List.forall_mem_cons] at hl
    obtain ⟨b, hb⟩ := hl.1
    refine hfirst ho.1 fun k hk => itemThen_reads hs hb (items_deep hs ho.2 hl.2 ha ?_ [b])
    exact Nat.lt_of_le_of_lt (List.length_append ▸ Nat.le_add_right _ _) hk

end Sequences

section Texts

def Object.upTo (l : Object) (k : String) : List Char :=
  '{' :: (l.flatMap fun m => memberText m ++ [',']) ++ renderString k ++ [':']

def Object.behind (r : Object) : List Char := (r.flatMap fun m => ',' :: memberText m) ++ ['}']

lemma joined_append {A : Type} (text : A → List Char) (l : List A) (a : A) (r : List A) :
    joined text (l ++ a :: r) = (l.flatMap fun a => text a ++ [',']) ++ joined text (a :: r) := by
  induction l with
  | nil => rfl
  | cons b l ih =>
    have hc (as : List A) (c : A) : joined text (b :: c :: as) = text b ++ ',' :: joined text (c :: as) := by
      simp [joined]
    rw [List.flatMap_cons, List.append_assoc, ← ih]
    cases l with
    | nil => simp [hc]
    | cons c l => simp [hc]

lemma render_object_append (l : Object) (k : String) (v : Value) (r : Object) :
    (Value.object (l ++ (k, v) :: r)).render = Object.upTo l k ++ v.render ++ Object.behind r := by
  rw [Value.render, renderMembers_eq, joined_append, joined, memberText, Object.upTo, Object.behind]
  simp

lemma tail_memberText (r : Object) : Shape.object.tail memberText r = encode (Object.behind r) := by
  rw [Object.behind, encode_append]
  rfl

end Texts

section Values

variable {d n : Nat}

lemma member_deep {α : Type} {read : Reader α} {m : String × Value} (h : TooDeep read (encode m.2.render) n) :
    TooDeep (member read) (encode (memberText m)) n := by
  intro rest hr
  have hk : key (encode (memberText m) ++ rest) = .ok (m.1, encode m.2.render ++ rest) := by
    rw [encode_memberText, key, List.cons_append, List.tail_cons, List.append_assoc, List.cons_append,
      string_renderString]
    rfl
  simp only [member, hk, bind, Except.bind, h rest hr]

lemma bracket_deep {read : Reader Value} {b : UInt8} {t : Bytes}
    (h : ∀ r, read (b :: r) = .error (.next .tooDeep (b :: r))) : TooDeep read (b :: t) t.length := by
  intro rest _
  rw [List.cons_append, h, Failure.next, List.length_cons, List.length_append, Nat.add_sub_cancel]

lemma array_deep {l r : List Value} {v : Value}
    (hl : ∀ x ∈ l, ∃ w, Gives (value d) (encode x.render) (some w))
    (hv : TooDeep (value d) (encode v.render) n) :
    TooDeep (value (d + 1)) (encode (Value.array (l ++ v :: r)).render)
      (n + (Shape.list.tail Value.render r).length) := by
  have hs := Shape.all_deep (r := r) (.inl rfl) (fun x _ => opens_render x) hl hv
  rw [encode_array]
  intro rest hr
  rw [List.cons_append, value_bracket]
  exact (hs.map Value.array) rest hr

lemma object_deep {l r : Object} {k : String} {v : Value}
    (hl : ∀ m ∈ l, ∃ w, Gives (value d) (encode m.2.render) (some w))
    (hv : TooDeep (value d) (encode v.render) n) :
    TooDeep (value (d + 1)) (encode (Value.object (l ++ (k, v) :: r)).render)
      (n + (encode (Object.behind r)).length) := by
  have hm : ∀ m ∈ l, ∃ b, Gives (member (value d)) (encode (memberText m)) (some b) := by
    intro m hm
    obtain ⟨w, hw⟩ := hl m hm
    exact ⟨(m.1, w), member_gives hw⟩
  have hs := Shape.all_deep (r := r) (.inr rfl) (fun x _ => opens_memberText x) hm
    (member_deep (m := (k, v)) hv)
  rw [encode_object, ← tail_memberText]
  intro rest hr
  rw [List.cons_append, value_brace]
  exact (hs.map fun ms => Value.object (Object.ofMembers ms)) rest hr

lemma exists_first_deep {A : Type} (depth : A → Nat) {as : List A} (h : ¬ ∀ a ∈ as, depth a ≤ d) :
    ∃ l a r, as = l ++ a :: r ∧ (∀ x ∈ l, depth x ≤ d) ∧ d < depth a := by
  simp only [not_forall, Nat.not_le] at h
  obtain ⟨a, ha, hd⟩ := h
  obtain ⟨b, hb⟩ := Option.isSome_iff_exists.mp
    (List.find?_isSome.mpr ⟨a, ha, decide_eq_true hd⟩ : (as.find? fun a => decide (d < depth a)).isSome)
  obtain ⟨hp, l, r, rfl, hl⟩ := List.find?_eq_some_iff_append.mp hb
  refine ⟨l, b, r, rfl, fun x hx => ?_, of_decide_eq_true hp⟩
  simpa using hl x hx

theorem value_deep {v : Value} (hk : v.Keyed) (hv : v.Valid) (hd : d < v.depth) :
    ∃ n, TooDeep (value d) (encode v.render) n := by
  have hgives {x : Value} {e : Nat} (hk : x.Keyed) (hv : x.Valid) (hle : x.depth ≤ e) :
      ∃ w, Gives (value e) (encode x.render) (some w) := by
    obtain ⟨w, hw⟩ := (Value.exists_reread?_iff hv).mpr hle
    exact ⟨w, hw ▸ value_gives hk e⟩
  induction v using Value.induct generalizing d with
  | null | bool | number | string => exact absurd hd (Nat.not_lt_zero d)
  | array vs ih =>
    cases d with
    | zero => exact ⟨_, encode_array vs ▸ bracket_deep value_bracket_zero⟩
    | succ d =>
      have hkeyed := holdsItems_iff.mp hk
      have hvalid := holdsItems_iff.mp hv
      obtain ⟨l, a, r, rfl, hl, ha⟩ := exists_first_deep Value.depth
        (mt depthItems_le_iff.mpr (Nat.not_le_of_lt (Nat.lt_of_succ_lt_succ hd)))
      have hmem : a ∈ l ++ a :: r := List.mem_append_right l List.mem_cons_self
      obtain ⟨n, hn⟩ := ih a hmem (hkeyed a hmem) (hvalid a hmem) ha
      refine ⟨_, array_deep (fun x hx => ?_) hn⟩
      have hx' : x ∈ l ++ a :: r := List.mem_append_left _ hx
      exact hgives (hkeyed x hx') (hvalid x hx') (hl x hx)
  | object ms ih =>
    cases d with
    | zero => exact ⟨_, encode_object ms ▸ bracket_deep value_brace_zero⟩
    | succ d =>
      have hkeyed := holdsMembers_iff.mp hk.2
      have hvalid := holdsMembers_iff.mp hv.2
      obtain ⟨l, ⟨k, a⟩, r, rfl, hl, ha⟩ := exists_first_deep (fun m : String × Value => m.2.depth)
        (mt depthMembers_le_iff.mpr (Nat.not_le_of_lt (Nat.lt_of_succ_lt_succ hd)))
      have hmem : (k, a) ∈ l ++ (k, a) :: r := List.mem_append_right l List.mem_cons_self
      obtain ⟨n, hn⟩ := ih _ hmem (hkeyed _ hmem) (hvalid _ hmem) ha
      refine ⟨_, object_deep (fun x hx => ?_) hn⟩
      have hx' : x ∈ l ++ (k, a) :: r := List.mem_append_left _ hx
      exact hgives (hkeyed x hx') (hvalid x hx') (hl x hx)

lemma parse_tooDeep {v : Value} {t rest : List Char} (ht : v.render = t ++ rest)
    (h : TooDeep (value maxDepth) (encode v.render) (n + (encode rest).length)) :
    parse v.compact = .error (Failure.locate (encode t) ⟨.tooDeep, n⟩) := by
  have hv := h [] ends_nil
  rw [List.append_nil, List.length_nil, Nat.add_zero] at hv
  rw [parse, parseBytes, Bytes.ofText, Value.compact, String.toList_ofList, whole, hv, ht, encode_append]
  exact congrArg Except.error (locate_append _ _ _ _)

end Values

end DumpImport.Json
