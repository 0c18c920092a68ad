import DumpImport.Json.Reader
import DumpImport.Proofs.Json.Values
import DumpImport.Proofs.Outcome

/-! What is known of a value that was read, whatever the text: no object in it names a key twice,
it is no deeper than the reader may go, and its numbers are such as the reader makes. -/

namespace DumpImport.Json

section Items

variable {α : Type} {P : α → Prop} {item : Reader α} (hi : ∀ bs a r, item bs = .ok (a, r) → P a)

include hi

lemma Shape.items_forall {s : Shape} {n : Nat} {first : Bool} {acc : List α} {bs : Bytes} {as : List α}
    {r : Bytes} (ha : ∀ a ∈ acc, P a) (h : s.items item n first acc bs = .ok (as, r)) : ∀ a ∈ as, P a := by
  induction n generalizing first acc bs with
  | zero => cases h
  | succ n ih =>
    rw [items] at h
    rcases hn : s.next first bs with _ | ⟨more, r'⟩ <;> rw [hn] at h
    · cases h
    cases more with
    | false =>
      cases h
      simpa using ha
    | true =>
      rcases hit : item r' with _ | ⟨a, t⟩ <;> simp only [hit] at h
      · cases h
      exact ih (List.forall_mem_cons.mpr ⟨hi _ _ _ hit, ha⟩) h

lemma Shape.all_forall {s : Shape} {bs : Bytes} {as : List α} {r : Bytes} (h : s.all item bs = .ok (as, r)) :
    ∀ a ∈ as, P a :=
  items_forall hi (List.forall_mem_nil _) h

lemma member_forall {bs : Bytes} {m : String × α} {r : Bytes} (h : member item bs = .ok (m, r)) : P m.2 := by
  obtain ⟨⟨k, t⟩, -, h⟩ := bind_eq_ok.mp h
  obtain ⟨⟨a, u⟩, ha, h⟩ := bind_eq_ok.mp h
  cases h
  exact hi _ _ _ ha

end Items

lemma eq_ok_of_map {α β : Type} {x : Except Failure (α × Bytes)} {f : α → β} {b : β} {r : Bytes}
    (h : (x.map fun (a, r) => (f a, r)) = .ok (b, r)) : ∃ a, x = .ok (a, r) ∧ b = f a := by
  obtain ⟨⟨a, t⟩, hx, hb⟩ := map_eq_ok.mp h
  cases hb
  exact ⟨a, hx, rfl⟩

lemma literal_eq_ok {w : List UInt8} {v u : Value} {bs r : Bytes} (h : literal w v bs = .ok (u, r)) :
    u = v := by
  induction w generalizing bs with
  | nil =>
    cases h
    rfl
  | cons b w ih =>
    cases bs with
    | nil => cases h
    | cons c bs =>
      rw [literal] at h
      split_ifs at h
      exact ih h

/-- The values that a reader makes where so many brackets may still open. -/
inductive Value.IsRead : Nat → Value → Prop where
  | null (d : Nat) : IsRead d .null
  | bool (d : Nat) (b : Bool) : IsRead d (.bool b)
  | number (d : Nat) {negative : Bool} {bs r : Bytes} {n : Number}
      (read : Json.number negative bs = .ok (n, r)) :
      IsRead d (.number n)
  | string (d : Nat) (s : String) : IsRead d (.string s)
  | array {d : Nat} {vs : List Value} (items : ∀ v ∈ vs, IsRead d v) : IsRead (d + 1) (.array vs)
  | object {d : Nat} {ms : List (String × Value)} (members : ∀ m ∈ ms, IsRead d m.2) :
      IsRead (d + 1) (.object (Object.ofMembers ms))

lemma isRead_step {d : Nat} (hd : ∀ e, d = e + 1 → ∀ bs v r, value e bs = .ok (v, r) → v.IsRead e)
    {bs : Bytes} {v : Value} {r : Bytes} (h : value d bs = .ok (v, r)) : v.IsRead d := by
  rw [value] at h
  cases hb : skipBlank bs with
  | nil =>
    rw [hb] at h
    cases h
  | cons b t =>
    simp only [hb] at h
    split_ifs at h
    · exact literal_eq_ok h ▸ .null d
    · exact literal_eq_ok h ▸ .bool d true
    · exact literal_eq_ok h ▸ .bool d false
    · obtain ⟨n, hn, rfl⟩ := eq_ok_of_map h
      exact .number d hn
    · obtain ⟨n, hn, rfl⟩ := eq_ok_of_map h
      exact .number d hn
    · obtain ⟨s, -, rfl⟩ := eq_ok_of_map h
      exact .string d s
    · cases d with
      | zero => cases h
      | succ e =>
        obtain ⟨vs, ha, rfl⟩ := eq_ok_of_map h
        exact .array (Shape.all_forall (hd e rfl) ha)
    · cases d with
      | zero => cases h
      | succ e =>
        obtain ⟨ms, ha, rfl⟩ := eq_ok_of_map (f := fun ms => Value.object (Object.ofMembers ms)) h
        exact .object
          (Shape.all_forall (P := fun m => m.2.IsRead e) (fun _ _ _ => member_forall (hd e rfl)) ha)

theorem isRead_of_value {d : Nat} {bs : Bytes} {v : Value} {r : Bytes} (h : value d bs = .ok (v, r)) :
    v.IsRead d := by
  induction d generalizing bs v r with
  | zero => exact isRead_step (fun e he => absurd he (Nat.succ_ne_zero e).symm) h
  | succ d ih =>
    refine isRead_step ?_ h
    rintro e ⟨⟩ bs v r hv
    exact ih hv

theorem isRead_of_parse {s : String} {v : Value} (h : parse s = .ok v) : v.IsRead maxDepth := by
  rw [parse, parseBytes, whole] at h
  rcases hv : value maxDepth (Bytes.ofText s) with f | ⟨u, r⟩ <;> rw [hv] at h
  · cases h
  · rcases he : atEnd r with f | _ <;> simp only [he] at h
    · cases h
    · cases h
      exact isRead_of_value hv

namespace Value.IsRead

variable {d : Nat} {v : Value}

lemma keyed (h : v.IsRead d) : v.Keyed := by
  induction h with
  | null => trivial
  | bool => trivial
  | number => trivial
  | string => trivial
  | array items ih => exact holdsItems_iff.mpr ih
  | object members ih =>
    exact ⟨Object.nodup_ofMembers _, holdsMembers_iff.mpr fun m hm => ih m (Object.mem_ofMembers hm)⟩

lemma depth_le (h : v.IsRead d) : v.depth ≤ d := by
  induction h with
  | null => exact Nat.zero_le _
  | bool => exact Nat.zero_le _
  | number => exact Nat.zero_le _
  | string => exact Nat.zero_le _
  | array items ih => exact Nat.succ_le_succ (depthItems_le_iff.mpr ih)
  | object members ih =>
    exact Nat.succ_le_succ (depthMembers_le_iff.mpr fun m hm => ih m (Object.mem_ofMembers hm))

lemma holds (h : v.IsRead d) {p : Number → Prop}
    (hp : ∀ negative bs n r, Json.number negative bs = .ok (n, r) → p n) :
    v.Holds p (fun _ => True) := by
  induction h with
  | null => trivial
  | bool => trivial
  | number d read => exact hp _ _ _ _ read
  | string => trivial
  | array items ih => exact holdsItems_iff.mpr ih
  | object members ih =>
    exact ⟨trivial, holdsMembers_iff.mpr fun m hm => ih m (Object.mem_ofMembers hm)⟩

end Value.IsRead

theorem parse_keyed {s : String} {v : Value} (h : parse s = .ok v) : v.Keyed := (isRead_of_parse h).keyed

end DumpImport.Json
