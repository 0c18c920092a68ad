import DumpImport.Proofs.Json.Nesting
import DumpImport.Proofs.Record.Complaints
import DumpImport.Proofs.Record.Version

namespace DumpImport.Record

open Json

def Serializes {α : Type} (x : Except Error α) : Prop := ∀ e, x ≠ .error (.json e)

namespace Serializes

variable {α β : Type} {x : Except Error α} {f : α → Except Error β}

lemma ok (a : α) : Serializes (.ok a : Except Error α) := by
  rintro e ⟨⟩

lemma bind (hx : Serializes x) (hf : ∀ a, x = .ok a → Serializes (f a)) : Serializes (x >>= f) := by
  cases x with
  | ok a => exact hf a rfl
  | error e =>
    rintro e' ⟨⟩
    exact hx e' rfl

lemma map (hx : Serializes x) (g : α → β) : Serializes (x.map g) := by
  cases x with
  | ok a => exact ok (g a)
  | error e =>
    rintro e' ⟨⟩
    exact hx e' rfl

end Serializes

lemma Complains.serializes {α : Type} {ds : List String} {x : Except Error α} (h : Complains ds x) :
    Serializes x := by
  intro e he
  obtain ⟨s, -, hs⟩ := (h _).mp he
  cases hs

section Documents

lemma parseDocument_serializes (line : String) : Serializes (parseDocument line) := by
  rw [parseDocument]
  split <;> rintro e ⟨⟩

lemma unwrap_serializes (o : Document) : Serializes o.unwrap := by
  have hd (d : Deletion) (o : Document) : Serializes (d.unwrap o) := by
    rw [Deletion.unwrap]
    split <;> rintro e ⟨⟩
  exact (hd _ o).bind fun a _ => (hd _ a.1).bind fun b _ => .ok _

lemma readId_serializes (o : Document) : Serializes o.readId := by
  refine (Id.of_complains _).serializes.bind fun i _ => ?_
  split_ifs
  · rintro e ⟨⟩
  · exact .ok i

end Documents

section Depth

lemma depth_of_wrapped? {v : Value} {k s : String} (h : v.wrapped? k = some s) : v.depth = 1 := by
  unfold Value.wrapped? at h
  split at h
  · rename_i l w
    split_ifs at h
    cases w with
    | string | number | bool => rfl
    | null => cases h
    | array => cases h
    | object => cases h
  · cases h

lemma depth_of_primitive? {v : Value} {s : String} (h : v.primitive? = some s) : v.depth = 0 := by
  cases v with
  | string | number | bool => rfl
  | null => cases h
  | array => cases h
  | object => cases h

lemma depth_flattenDates {fs : List String} {o o' : Document} (h : o.flattenDates fs = ⟨o', none⟩) (n : ℕ) :
    (Value.object o').depth ≤ n + 2 ↔ (Value.object o).depth ≤ n + 2 := by
  have hall : Object.All (fun v => v.depth ≤ n + 1) o' ↔ Object.All (fun v => v.depth ≤ n + 1) o := by
    induction fs generalizing o with
    | nil =>
      cases h
      exact Iff.rfl
    | cons f fs ih =>
      obtain ⟨u, hu, h⟩ := flattenDates_cons h
      refine (ih h).trans ?_
      rw [Document.flattenDate] at hu
      split at hu
      · rename_i d hd
        obtain ⟨t, -, rfl⟩ := map_eq_ok.mp hu
        obtain ⟨v, hv, hw⟩ := DateShape.of_eq_wrapped.mp hd
        have hv1 : v.depth ≤ n + 1 := by
          rw [depth_of_wrapped? hw]
          exact Nat.le_add_left 1 n
        exact Object.all_insert_iff hv hv1 (Nat.zero_le _)
      · cases hu
        exact Iff.rfl
  have hle (o : Document) : (Value.object o).depth ≤ n + 2 ↔ Object.All (fun v => v.depth ≤ n + 1) o := by
    rw [Value.depth, Nat.succ_le_succ_iff, depthMembers_le_iff]
    rfl
  rw [hle, hle, hall]

end Depth

section Ids

lemma Id.Reads.exists_value {v : Value} {i : Id} (h : Reads v i) (hk : v.Keyed) (hv : v.Valid)
    (hd : v.depth ≤ 126) :
    ∃ w, i.value = .ok w ∧ w.Valid ∧ (w.depth ≤ 125 ↔ v.depth ≤ 125) := by
  cases h with
  | oid wrapped =>
    refine ⟨.string _, rfl, trivial, iff_of_true (Nat.zero_le _) ?_⟩
    rw [depth_of_wrapped? wrapped]
    decide
  | plain primitive =>
    refine ⟨.string _, rfl, trivial, iff_of_true (Nat.zero_le _) ?_⟩
    rw [depth_of_primitive? primitive]
    decide
  | object =>
    obtain ⟨w, hw, hdepth⟩ := Value.exists_parse_compact hk hv (Nat.le_succ_of_le hd)
    exact ⟨w, (value_eq_ok (.inl rfl)).mpr hw, (isRead_of_parse hw).valid, by rw [hdepth]⟩
  | @dates o o' noOid dated flat =>
    have hv' : (Value.object o').Valid :=
      ⟨trivial, holdsMembers_iff.mpr (flattenDates_all (fun _ => trivial) flat (holdsMembers_iff.mp hv.2))⟩
    have hd' : (Value.object o').depth ≤ maxDepth := Nat.le_succ_of_le ((depth_flattenDates flat 124).mpr hd)
    obtain ⟨w, hw, hdepth⟩ := Value.exists_parse_compact (flattenDates_keyed flat hk) hv' hd'
    exact ⟨w, (value_eq_ok (.inr rfl)).mpr hw, (isRead_of_parse hw).valid,
      by rw [hdepth, depth_flattenDates flat 123]⟩

variable {line : String} {o : Document} {u : Unwrapped} {i : Id}

def Readable (d : Nat) (v : Value) : Prop := v.Valid ∧ v.depth ≤ d

lemma hereditary_readable (d : Nat) : Hereditary (Readable d) := by
  refine ⟨fun _ => ⟨trivial, Nat.zero_le d⟩, fun {o} h m hm => ⟨holdsMembers_iff.mp h.1.2 m hm, ?_⟩⟩
  exact depthMembers_le_iff.mp (Nat.le_of_succ_le h.2) m hm

lemma unwrap_readable (hp : parseDocument line = .ok o) (hu : o.unwrap = .ok u) :
    Object.All (Readable 126) u.document := by
  have hread := isRead_of_parseDocument hp
  refine unwrap_all (hereditary_readable 126) hu fun m hm => ⟨holdsMembers_iff.mp hread.valid.2 m hm, ?_⟩
  exact depthMembers_le_iff.mp (Nat.le_of_succ_le_succ hread.depth_le) m hm

lemma exists_value_of_readId (hp : parseDocument line = .ok o) (hu : o.unwrap = .ok u)
    (hi : Document.readId u.document = .ok i) :
    ∃ v w, Object.get? u.document Field.id = some v ∧ i.value = .ok w ∧ w.Valid ∧
      (w.depth ≤ 125 ↔ v.depth ≤ 125) := by
  obtain ⟨v, hv, hr⟩ := reads_of_readId hi
  have hk : v.Keyed := Object.holds_get? (unwrap_keyed hu (parseDocument_keyed hp)).2 hv
  have hread := (unwrap_readable hp hu).get? hv
  obtain ⟨w, hw⟩ := hr.exists_value hk hread.1 hread.2
  exact ⟨v, w, hv, hw⟩

lemma prepare_serializes (line : String) : Serializes (prepare line) := by
  refine (parseDocument_serializes line).bind fun o ho => (unwrap_serializes o).bind fun u hu => ?_
  refine (readId_serializes u.document).bind fun i hi =>
    (readDates_complains u.document).serializes.bind fun ds _ => ?_
  have hid : Serializes (Document.withId u.document i) := by
    obtain ⟨v, w, -, hw, -⟩ := exists_value_of_readId ho hu hi
    rw [Document.withId, hw]
    split_ifs <;> exact .ok _
  exact hid.bind fun f _ => ((parseDate_complains _).serializes.map _).bind fun t _ => .ok _

def recordId? (line : String) : Option Value := do
  let o ← (parseDocument line).toOption
  let u ← o.unwrap.toOption
  Object.get? u.document Field.id

lemma Prepares.exists_value {flat : Document} {p : Prepared} (h : Prepares line o u flat p) :
    ∃ v w, recordId? line = some v ∧ p.id.value = .ok w ∧ w.Valid ∧ (w.depth ≤ 125 ↔ v.depth ≤ 125) := by
  obtain ⟨v, w, hv, hw⟩ := exists_value_of_readId h.parsed h.unwrapped h.id
  refine ⟨v, w, ?_, hw⟩
  rw [recordId?, h.parsed]
  simp only [Except.toOption, bind, Option.bind, h.unwrapped, hv]

end Ids

section Keys

lemma Key.exists_ofText_iff {v : Value} (hk : v.Keyed) (s : Stamp) (c : Content) :
    (∃ k, Key.ofText (Envelope.value s c v).compact = .ok k) ↔ ∃ w, v.reread? 125 = some w := by
  refine ⟨fun ⟨k, hk'⟩ => reread?_of_ofText hk hk', fun ⟨w, hw⟩ => ⟨ofEnvelope (Envelope.value s c w), ?_⟩⟩
  rw [ofText, (Envelope.parse_value s c hk).mpr ⟨w, hw, rfl⟩]

lemma Key.ofText_json {t : String} (h : ¬ ∃ k, Key.ofText t = .ok k) :
    ∃ e, Key.ofText t = .error (.json e) := by
  rw [ofText] at h ⊢
  cases hp : parse t with
  | ok v =>
    rw [hp] at h
    exact absurd ⟨_, rfl⟩ h
  | error e => exact ⟨e, rfl⟩

end Keys

namespace Mapper

variable {m : Mapper} {c : Dump.Collection} {d : Draw} {line : String} {p : Prepared} {body : Cipher.Sealed}

lemma encrypt_serializes (m : Mapper) (d : Draw) (p : Prepared) : Serializes (m.encrypt d p) := by
  rw [encrypt]
  split <;> rintro e ⟨⟩

lemma build_content {w : Value} (hw : p.id.value = .ok w) (s : Stamp) :
    Envelope.build s (m.content c p body) = .ok (Envelope.value s (m.content c p body) w).compact :=
  bind_eq_ok.mpr ⟨w, hw, rfl⟩

lemma outcome_of_prepare (hp : prepare line = .ok p) (hb : m.encrypt d p = .ok body) :
    ∃ v w, recordId? line = some v ∧ p.id.value = .ok w ∧ (v.depth ≤ 125 → ∃ r, m.map c d line = .ok r) ∧
      (125 < v.depth → ∃ e, m.map c d line = .error (.json e)) := by
  obtain ⟨o, u, flat, hpr⟩ := prepares_of_prepare hp
  obtain ⟨v, w, hv, hw, hvalid, hdepth⟩ := hpr.exists_value
  have hkey := Key.exists_ofText_iff (Id.value_keyed hw) ⟨m.unitOfWork, m.trace, d.time⟩ (m.content c p body)
  rw [Value.exists_reread?_iff hvalid, hdepth] at hkey
  refine ⟨v, w, hv, hw, fun hle => ?_, fun hlt => ?_⟩
  · obtain ⟨k, hk⟩ := hkey.mpr hle
    exact ⟨_, bind_eq_ok.mpr ⟨p, hp, bind_eq_ok.mpr ⟨body, hb, bind_eq_ok.mpr ⟨_, build_content hw _,
      bind_eq_ok.mpr ⟨k, hk, rfl⟩⟩⟩⟩⟩
  · obtain ⟨e, he⟩ := Key.ofText_json (hkey.not.mpr (not_le.mpr hlt))
    refine ⟨e, ?_⟩
    rw [Mapper.map, hp]
    simp only [bind, Except.bind, hb, build_content hw, he]

lemma exists_prepare_of_json (h : ∃ e, m.map c d line = .error (.json e)) :
    ∃ p body, prepare line = .ok p ∧ m.encrypt d p = .ok body := by
  obtain ⟨e, he⟩ := h
  cases hp : prepare line with
  | error e' =>
    rw [Mapper.map, hp] at he
    cases he
    exact absurd hp (prepare_serializes line e)
  | ok p =>
    cases hb : m.encrypt d p with
    | error e' =>
      rw [Mapper.map, hp] at he
      simp only [bind, Except.bind, hb] at he
      cases he
      exact absurd hb (encrypt_serializes m d p e)
    | ok body => exact ⟨p, body, rfl, hb⟩

end Mapper

def nested : Nat → Value
  | 0 => .null
  | n + 1 => .object [("a", nested n)]

lemma depth_nested (n : Nat) : (nested n).depth = n := by
  induction n with
  | zero => rfl
  | succ n ih => rw [nested, Value.depth, depthMembers, depthMembers, ih, Nat.max_zero]

lemma legible_nested {n : Nat} (h : n ≤ 126) : Document.Legible [(Field.id, nested n)] := by
  have hk (n : Nat) : (nested n).Keyed := by
    induction n with
    | zero => trivial
    | succ n ih => exact ⟨List.nodup_singleton _, ih, trivial⟩
  have hs (n : Nat) : (nested n).Stable := by
    induction n with
    | zero => trivial
    | succ n ih => exact ⟨trivial, ih, trivial⟩
  refine ⟨⟨List.nodup_singleton _, hk n, trivial⟩,
    Value.Fits.object_iff.mpr (List.forall_mem_singleton.mpr ?_)⟩
  exact ⟨hs n, (depth_nested n).trans_le h⟩

lemma prepare_nested {n : Nat} (h : n < 126) :
    ∃ p, prepare (Object.compact [(Field.id, nested (n + 1))]) = .ok p := by
  have hp := parseDocument_compact (legible_nested (Nat.succ_le_of_lt h))
  have hi : Document.readId [(Field.id, nested (n + 1))] =
      .ok ⟨Object.compact [("a", nested n)], .object⟩ := rfl
  exact ⟨_, bind_eq_ok.mpr ⟨_, hp, bind_eq_ok.mpr ⟨_, rfl, bind_eq_ok.mpr ⟨_, hi, bind_eq_ok.mpr ⟨_, rfl,
    bind_eq_ok.mpr ⟨_, rfl, bind_eq_ok.mpr ⟨_, millisOf_epochDate, rfl⟩⟩⟩⟩⟩⟩⟩

lemma recordId?_nested {n : Nat} (h : n ≤ 126) :
    recordId? (Object.compact [(Field.id, nested n)]) = some (nested n) := by
  rw [recordId?, parseDocument_compact (legible_nested h)]
  rfl

lemma exists_encrypt_sample (p : Prepared) : ∃ body, Mapper.sample.encrypt Mapper.sampleDraw p = .ok body :=
  Mapper.encrypt_of_key (k := List.replicate 16 0) (by decide +kernel) (by decide) p

theorem deep_id_not_serialized :
    ∃ e, Mapper.sample.map .unset Mapper.sampleDraw (Object.compact [(Field.id, nested 126)]) =
      .error (.json e) := by
  obtain ⟨p, hp⟩ := prepare_nested (n := 125) (by decide)
  obtain ⟨body, hb⟩ := exists_encrypt_sample p
  obtain ⟨v, w, hv, -, -, hjson⟩ := Mapper.outcome_of_prepare hp hb
  cases (recordId?_nested le_rfl).symm.trans hv
  exact hjson (depth_nested 126).ge

/-- Serialization fails for a line that can be made ready and encrypted exactly if its id is nested
more than 125 levels deep. Even then the document is written, the id read and the envelope built,
whatever numbers stand in them. -/
theorem serialization_fails_iff_deep (m : Mapper) (c : Dump.Collection) (d : Draw) (line : String) :
    ((∃ e, m.map c d line = .error (.json e)) ↔
      ∃ p body v, prepare line = .ok p ∧ m.encrypt d p = .ok body ∧ recordId? line = some v ∧ 125 < v.depth) ∧
    ∀ p body, prepare line = .ok p → m.encrypt d p = .ok body →
      ∃ v w t, recordId? line = some v ∧ p.id.value = .ok w ∧
        Envelope.build ⟨m.unitOfWork, m.trace, d.time⟩ (m.content c p body) = .ok t ∧
        ((∃ r, m.map c d line = .ok r) ↔ v.depth ≤ 125) := by
  refine ⟨⟨fun h => ?_, ?_⟩, fun p body hp hb => ?_⟩
  · obtain ⟨p, body, hp, hb⟩ := Mapper.exists_prepare_of_json h
    obtain ⟨v, w, hv, -, hok, -⟩ := Mapper.outcome_of_prepare (c := c) hp hb
    refine ⟨p, body, v, hp, hb, hv, not_le.mp fun hle => ?_⟩
    obtain ⟨r, hr⟩ := hok hle
    obtain ⟨e, he⟩ := h
    cases hr.symm.trans he
  · rintro ⟨p, body, v, hp, hb, hv, hlt⟩
    obtain ⟨v', w, hv', -, -, hjson⟩ := Mapper.outcome_of_prepare (c := c) hp hb
    cases hv.symm.trans hv'
    exact hjson hlt
  · obtain ⟨v, w, hv, hw, hok, hjson⟩ := Mapper.outcome_of_prepare (c := c) hp hb
    refine ⟨v, w, _, hv, hw, Mapper.build_content hw _, fun ⟨r, hr⟩ => not_lt.mp fun hlt => ?_, hok⟩
    obtain ⟨e, he⟩ := hjson hlt
    cases hr.symm.trans he

theorem serialization_fails_iff_deep_sample :
    ∃ r, Mapper.sample.map .unset Mapper.sampleDraw (Object.compact [(Field.id, nested 125)]) = .ok r := by
  obtain ⟨p, hp⟩ := prepare_nested (n := 124) (by decide)
  obtain ⟨body, hb⟩ := exists_encrypt_sample p
  obtain ⟨-, hok⟩ := serialization_fails_iff_deep Mapper.sample .unset Mapper.sampleDraw
    (Object.compact [(Field.id, nested 125)])
  obtain ⟨v, w, t, hv, -, -, hiff⟩ := hok p body hp hb
  cases (recordId?_nested (by decide)).symm.trans hv
  exact hiff.mpr (depth_nested 125).le

end DumpImport.Record
