import DumpImport.Proofs.Json.Parsed
import DumpImport.Proofs.Json.RoundTrip

namespace DumpImport.Json

open Text.Utf8

def Reader.map {α β : Type} (read : Reader α) (f : α → β) : Reader β := fun bs =>
  (read bs).map fun (a, r) => (f a, r)

/-- Reads what `value` reads, and leaves the members of objects as they are written. -/
def verbatim : Nat → Reader Value
  | 0, bs => value 0 bs
  | d + 1, bs =>
    match skipBlank bs with
    | [] => value (d + 1) bs
    | b :: r =>
      if b = 0x5B then (Shape.list.all (verbatim d)).map .array r
      else if b = 0x7B then (Shape.object.all (member (verbatim d))).map .object r
      else value (d + 1) bs

def parseVerbatim (s : String) : Except Error Value := whole (verbatim maxDepth) (Bytes.ofText s)

mutual

def Value.merged : Value → Value
  | .array vs => .array (mergedItems vs)
  | .object ms => .object (Object.ofMembers (mergedMembers ms))
  | v => v

def mergedItems : List Value → List Value
  | [] => []
  | v :: vs => v.merged :: mergedItems vs

def mergedMembers : List (String × Value) → Object
  | [] => []
  | (k, v) :: ms => (k, v.merged) :: mergedMembers ms

end

section Merging

lemma mergedItems_eq (vs : List Value) : mergedItems vs = vs.map Value.merged := by
  induction vs with
  | nil => rfl
  | cons v vs ih => rw [mergedItems, ih, List.map_cons]

lemma mergedMembers_eq (ms : Object) : mergedMembers ms = ms.map fun m => (m.1, m.2.merged) := by
  induction ms with
  | nil => rfl
  | cons m ms ih =>
    obtain ⟨k, v⟩ := m
    rw [mergedMembers, ih, List.map_cons]

lemma Value.Keyed.merged {v : Value} (h : v.Keyed) : v.merged = v := by
  induction v using Value.induct with
  | null | bool | number | string => rfl
  | array vs ih =>
    have hv := holdsItems_iff.mp h
    have hm : vs.map Value.merged = vs.map id := List.map_congr_left fun v hm => ih v hm (hv v hm)
    rw [Value.merged, mergedItems_eq, hm, List.map_id]
  | object ms ih =>
    have hv := holdsMembers_iff.mp h.2
    have hm : (ms.map fun m => (m.1, m.2.merged)) = ms.map id :=
      List.map_congr_left fun m hm => Prod.ext rfl (ih m hm (hv m hm))
    rw [Value.merged, mergedMembers_eq, hm, List.map_id, Object.ofMembers_of_nodup h.1]

end Merging

section Readers

variable {α β : Type} (item : Reader α) (f : α → β)

lemma Shape.items_map (s : Shape) (n : Nat) (first : Bool) (acc : List α) (bs : Bytes) :
    s.items (item.map f) n first (acc.map f) bs = Reader.map (s.items item n first acc) (List.map f) bs := by
  induction n generalizing first acc bs with
  | zero => rfl
  | succ n ih =>
    rw [Reader.map, items, items]
    rcases s.next first bs with e | ⟨more, r⟩
    · rfl
    cases more with
    | false => simp [Except.map]
    | true =>
      simp only [Reader.map] at ih ⊢
      cases item r with
      | error e => rfl
      | ok p => exact ih false (p.1 :: acc) p.2

lemma Shape.all_map (s : Shape) : s.all (item.map f) = (s.all item).map (List.map f) :=
  funext fun bs => items_map item f s _ true [] bs

lemma member_map : member (item.map f) = (member item).map fun m => (m.1, f m.2) := by
  funext bs
  simp only [Reader.map, member]
  rcases key bs with e | ⟨k, r⟩
  · rfl
  · simp only [bind, Except.bind]
    cases item r <;> rfl

lemma whole_map (bs : Bytes) : whole (item.map f) bs = (whole item bs).map f := by
  simp only [whole, Reader.map]
  rcases item bs with e | ⟨a, r⟩
  · rfl
  · simp only [Except.map]
    cases atEnd r <;> rfl

end Readers

lemma value_map_merged (d : Nat) (bs : Bytes) : Reader.map (value d) Value.merged bs = value d bs := by
  simp only [Reader.map]
  rcases h : value d bs with e | ⟨v, r⟩
  · rfl
  · rw [Except.map, (isRead_of_value h).keyed.merged]

lemma skipBlank_skipBlank (bs : Bytes) : skipBlank (skipBlank bs) = skipBlank bs := by
  cases h : skipBlank bs with
  | nil => rfl
  | cons b r =>
    have hb : isBlank b = false := by
      have := List.head?_dropWhile_not isBlank bs
      rw [← skipBlank, h] at this
      simpa using this
    exact skipBlank_cons hb r

lemma value_skipBlank (d : Nat) (bs : Bytes) : value d (skipBlank bs) = value d bs := by
  rw [value, skipBlank_skipBlank, ← value]

theorem value_eq_verbatim (d : Nat) : value d = (verbatim d).map Value.merged := by
  induction d with
  | zero => exact funext fun bs => (value_map_merged 0 bs).symm
  | succ d ih =>
    funext bs
    rw [Reader.map, verbatim]
    cases hb : skipBlank bs with
    | nil => exact (value_map_merged (d + 1) bs).symm
    | cons b r =>
      simp only
      split_ifs with hl ho
      · rw [← value_skipBlank, hb, hl, value_bracket, ih, Shape.all_map]
        simp only [Reader.map]
        cases Shape.list.all (verbatim d) r with
        | error e => rfl
        | ok p => simp [Except.map, Value.merged, mergedItems_eq]
      · rw [← value_skipBlank, hb, ho, value_brace, ih, member_map, Shape.all_map]
        simp only [Reader.map]
        cases Shape.object.all (member (verbatim d)) r with
        | error e => rfl
        | ok p => simp [Except.map, Value.merged, mergedMembers_eq]
      · exact (value_map_merged (d + 1) bs).symm

theorem parse_eq_merged (s : String) : parse s = (parseVerbatim s).map Value.merged := by
  rw [parse, parseBytes, value_eq_verbatim, whole_map, parseVerbatim]

def Unbracketed (t : Bytes) : Prop := ∃ b r, t = b :: r ∧ isBlank b = false ∧ b ≠ 0x5B ∧ b ≠ 0x7B

lemma Unbracketed.verbatim {t : Bytes} (h : Unbracketed t) (d : Nat) (rest : Bytes) :
    verbatim d (t ++ rest) = value d (t ++ rest) := by
  obtain ⟨b, r, rfl, hb, hl, ho⟩ := h
  cases d with
  | zero => rfl
  | succ d =>
    rw [List.cons_append, Json.verbatim, skipBlank_cons hb]
    simp only [if_neg hl, if_neg ho]

lemma unbracketed_digit {b : UInt8} (h : isDigit b = true) (r : Bytes) : Unbracketed (b :: r) := by
  refine ⟨b, r, rfl, (not_blank_of_isDigit h).1, ?_, ?_⟩ <;>
  · rintro rfl
    exact absurd h (by decide)

lemma unbracketed_number (n : Number) : Unbracketed (encode n.render) := by
  obtain ⟨negative, t, hr, ht, -⟩ := n.render_eq
  rw [hr]
  cases negative with
  | true => exact ⟨_, _, encode_cons_ascii (by decide) _, by decide, by decide, by decide⟩
  | false =>
    obtain ⟨b, r, hb, hd⟩ := encode_numeral_cons ht
    rw [if_neg Bool.false_ne_true, hb]
    exact unbracketed_digit hd r

lemma verbatim_gives_plain (v : Value) (hk : v.Keyed) (h : Unbracketed (encode v.render)) (d : Nat) :
    Gives (verbatim d) (encode v.render) (v.reread? d) :=
  (value_gives hk d).of_eq fun rest _ => h.verbatim d rest

lemma verbatim_bracket (d : Nat) (r : Bytes) :
    verbatim (d + 1) (0x5B :: r) = (Shape.list.all (verbatim d)).map .array r :=
  rfl

lemma verbatim_brace (d : Nat) (r : Bytes) :
    verbatim (d + 1) (0x7B :: r) = (Shape.object.all (member (verbatim d))).map .object r :=
  rfl

theorem verbatim_gives (v : Value) (d : Nat) : Gives (verbatim d) (encode v.render) (v.reread? d) := by
  induction v using Value.induct generalizing d with
  | null => exact verbatim_gives_plain .null trivial ⟨_, _, encode_cons_ascii (by decide) _, by decide⟩ d
  | bool b =>
    refine verbatim_gives_plain (.bool b) trivial ?_ d
    cases b <;> exact ⟨_, _, encode_cons_ascii (by decide) _, by decide⟩
  | number n => exact verbatim_gives_plain (.number n) trivial (unbracketed_number n) d
  | string s => exact verbatim_gives_plain (.string s) trivial ⟨_, _, encode_renderString s, by decide⟩ d
  | array vs ih =>
    rw [encode_array]
    cases d with
    | zero => exact fun rest _ => ⟨_, value_bracket_zero _⟩
    | succ d =>
      have hs := Shape.all_gives (.inl rfl) (fun v h => ih v h d) fun v _ => opens_render v
      rw [Value.reread?, rereadItems?_eq]
      exact (hs.map Value.array).of_eq fun rest _ => verbatim_bracket d _
  | object ms ih =>
    rw [encode_object]
    cases d with
    | zero => exact fun rest _ => ⟨_, value_brace_zero _⟩
    | succ d =>
      have hs := Shape.all_gives (.inr rfl) (fun m h => member_gives (ih m h d)) fun m _ => opens_memberText m
      rw [Value.reread?, rereadMembers?_eq]
      exact (hs.map Value.object).of_eq fun rest _ => verbatim_brace d _

theorem parseVerbatim_compact {v w : Value} (h : v.reread? maxDepth = some w) :
    parseVerbatim v.compact = .ok w := by
  have hg := verbatim_gives v maxDepth
  rw [h] at hg
  have hr := hg [] ends_nil
  rw [List.append_nil] at hr
  rw [parseVerbatim, whole, Bytes.ofText, Value.compact, String.toList_ofList, hr]
  rfl

end DumpImport.Json
