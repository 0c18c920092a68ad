import DumpImport.Json.Printer
import DumpImport.Json.Reader
import DumpImport.Proofs.Json.Objects

namespace DumpImport.Json

variable (p : Number → Prop) (q : List String → Prop)

mutual

/-- Every number inside has `p`, the keys of every object inside have `q`. -/
def Value.Holds : Value → Prop
  | .null => True
  | .bool _ => True
  | .number n => p n
  | .string _ => True
  | .array vs => HoldsItems vs
  | .object ms => q (Object.keys ms) ∧ HoldsMembers ms

def HoldsItems : List Value → Prop
  | [] => True
  | v :: vs => v.Holds ∧ HoldsItems vs

def HoldsMembers : List (String × Value) → Prop
  | [] => True
  | (_, v) :: ms => v.Holds ∧ HoldsMembers ms

end

def Value.Keyed (v : Value) : Prop := v.Holds (fun _ => True) List.Nodup

def Value.Whole (v : Value) : Prop := v.Holds (fun n => ∃ i, n = .int i) (fun _ => True)

mutual

def Value.depth : Value → Nat
  | .null => 0
  | .bool _ => 0
  | .number _ => 0
  | .string _ => 0
  | .array vs => depthItems vs + 1
  | .object ms => depthMembers ms + 1

def depthItems : List Value → Nat
  | [] => 0
  | v :: vs => max v.depth (depthItems vs)

def depthMembers : List (String × Value) → Nat
  | [] => 0
  | (_, v) :: ms => max v.depth (depthMembers ms)

end

/-- A double's text may be read as a neighbour of it. -/
def Number.reread? : Number → Option Number
  | .int i => some (.int i)
  | .double x =>
    match number x.negative (Text.Utf8.encode (x.mag.shortest.text Binary64.pointStyle)) with
    | .ok (n, _) => some n
    | .error _ => none

mutual

/-- What is read from the text of a value where so many brackets may still open. -/
def Value.reread? : Value → Nat → Option Value
  | .null, _ => some .null
  | .bool b, _ => some (.bool b)
  | .number n, _ => n.reread?.map .number
  | .string s, _ => some (.string s)
  | .array _, 0 => none
  | .array vs, d + 1 => (rereadItems? vs d).map .array
  | .object _, 0 => none
  | .object ms, d + 1 => (rereadMembers? ms d).map .object

def rereadItems? : List Value → Nat → Option (List Value)
  | [], _ => some []
  | v :: vs, d => (v.reread? d).bind fun w => (rereadItems? vs d).map (w :: ·)

def rereadMembers? : List (String × Value) → Nat → Option Object
  | [], _ => some []
  | (k, v) :: ms, d => (v.reread? d).bind fun w => (rereadMembers? ms d).map ((k, w) :: ·)

end

def Value.Stable (v : Value) : Prop := v.Holds (fun n => n.reread? = some n) (fun _ => True)

section Induction

variable {P : Value → Prop}

mutual

theorem Value.induct (null : P .null) (bool : ∀ b, P (.bool b)) (number : ∀ n, P (.number n))
    (string : ∀ s, P (.string s)) (array : ∀ vs, (∀ v ∈ vs, P v) → P (.array vs))
    (object : ∀ ms : Object, (∀ m ∈ ms, P m.2) → P (.object ms)) : ∀ v, P v
  | .null => null
  | .bool b => bool b
  | .number n => number n
  | .string s => string s
  | .array vs => array vs (induct_items null bool number string array object vs)
  | .object ms => object ms (induct_members null bool number string array object ms)

theorem induct_items (null : P .null) (bool : ∀ b, P (.bool b)) (number : ∀ n, P (.number n))
    (string : ∀ s, P (.string s)) (array : ∀ vs, (∀ v ∈ vs, P v) → P (.array vs))
    (object : ∀ ms : Object, (∀ m ∈ ms, P m.2) → P (.object ms)) : ∀ vs : List Value, ∀ v ∈ vs, P v
  | [] => List.forall_mem_nil _
  | v :: vs => List.forall_mem_cons.mpr
    ⟨Value.induct null bool number string array object v,
      induct_items null bool number string array object vs⟩

theorem induct_members (null : P .null) (bool : ∀ b, P (.bool b)) (number : ∀ n, P (.number n))
    (string : ∀ s, P (.string s)) (array : ∀ vs, (∀ v ∈ vs, P v) → P (.array vs))
    (object : ∀ ms : Object, (∀ m ∈ ms, P m.2) → P (.object ms)) :
    ∀ ms : List (String × Value), ∀ m ∈ ms, P m.2
  | [] => List.forall_mem_nil _
  | (_, v) :: ms => List.forall_mem_cons.mpr
    ⟨Value.induct null bool number string array object v,
      induct_members null bool number string array object ms⟩

end

end Induction

section Members

variable {p : Number → Prop} {q : List String → Prop}

lemma holdsItems_iff {vs : List Value} : HoldsItems p q vs ↔ ∀ v ∈ vs, v.Holds p q := by
  induction vs with
  | nil => simp [HoldsItems]
  | cons v vs ih => rw [HoldsItems, ih, List.forall_mem_cons]

lemma holdsMembers_iff {ms : Object} : HoldsMembers p q ms ↔ ∀ m ∈ ms, m.2.Holds p q := by
  induction ms with
  | nil => simp [HoldsMembers]
  | cons m ms ih =>
    obtain ⟨k, v⟩ := m
    rw [HoldsMembers, ih, List.forall_mem_cons]

lemma Value.Holds.imp {p' : Number → Prop} {q' : List String → Prop} (hp : ∀ n, p n → p' n)
    (hq : ∀ ks, q ks → q' ks) {v : Value} (h : v.Holds p q) : v.Holds p' q' := by
  induction v using Value.induct with
  | null => trivial
  | bool b => trivial
  | string s => trivial
  | number n => exact hp n h
  | array vs ih =>
    have hv := holdsItems_iff.mp h
    exact holdsItems_iff.mpr fun v hm => ih v hm (hv v hm)
  | object ms ih =>
    have hv := holdsMembers_iff.mp h.2
    exact ⟨hq _ h.1, holdsMembers_iff.mpr fun m hm => ih m hm (hv m hm)⟩

lemma depthItems_le_iff {vs : List Value} {d : Nat} : depthItems vs ≤ d ↔ ∀ v ∈ vs, v.depth ≤ d := by
  induction vs with
  | nil => simp [depthItems]
  | cons v vs ih => rw [depthItems, Nat.max_le, ih, List.forall_mem_cons]

lemma depthMembers_le_iff {ms : Object} {d : Nat} : depthMembers ms ≤ d ↔ ∀ m ∈ ms, m.2.depth ≤ d := by
  induction ms with
  | nil => simp [depthMembers]
  | cons m ms ih =>
    obtain ⟨k, v⟩ := m
    rw [depthMembers, Nat.max_le, ih, List.forall_mem_cons]

lemma Object.holds_get? {o : Object} {k : String} {v : Value} (h : HoldsMembers p q o)
    (hg : o.get? k = some v) : v.Holds p q :=
  holdsMembers_iff.mp h (k, v) (mem_of_get? hg)

lemma Object.holds_insert {o : Object} {v : Value} (h : HoldsMembers p q o) (hv : v.Holds p q) (k : String) :
    HoldsMembers p q (o.insert k v) :=
  holdsMembers_iff.mpr (All.insert (holdsMembers_iff.mp h) hv k)

lemma rereadItems?_eq (vs : List Value) (d : Nat) : rereadItems? vs d = vs.mapM (·.reread? d) := by
  induction vs with
  | nil => rfl
  | cons v vs ih =>
    rw [rereadItems?, ih, List.mapM_cons]
    cases v.reread? d with
    | none => rfl
    | some w => cases vs.mapM (·.reread? d) <;> rfl

lemma rereadMembers?_eq (ms : Object) (d : Nat) :
    rereadMembers? ms d = ms.mapM fun m => (m.2.reread? d).map (m.1, ·) := by
  induction ms with
  | nil => rfl
  | cons m ms ih =>
    obtain ⟨k, v⟩ := m
    rw [rereadMembers?, ih, List.mapM_cons]
    cases v.reread? d with
    | none => rfl
    | some w => cases ms.mapM fun m => (m.2.reread? d).map (m.1, ·) <;> rfl

lemma rereadItems?_whole {vs : List Value} {d : Nat}
    (h : ∀ v ∈ vs, v.reread? d = if v.depth ≤ d then some v else none) :
    rereadItems? vs d = if depthItems vs ≤ d then some vs else none := by
  induction vs with
  | nil => simp [rereadItems?, depthItems]
  | cons v vs ih =>
    rw [List.forall_mem_cons] at h
    rw [rereadItems?, h.1, ih h.2, depthItems]
    simp only [Nat.max_le]
    by_cases hv : v.depth ≤ d <;> by_cases hs : depthItems vs ≤ d <;> simp [hv, hs]

lemma rereadMembers?_whole {ms : Object} {d : Nat}
    (h : ∀ m ∈ ms, m.2.reread? d = if m.2.depth ≤ d then some m.2 else none) :
    rereadMembers? ms d = if depthMembers ms ≤ d then some ms else none := by
  induction ms with
  | nil => simp [rereadMembers?, depthMembers]
  | cons m ms ih =>
    obtain ⟨k, v⟩ := m
    rw [List.forall_mem_cons] at h
    rw [rereadMembers?, h.1, ih h.2, depthMembers]
    simp only [Nat.max_le]
    by_cases hv : v.depth ≤ d <;> by_cases hs : depthMembers ms ≤ d <;> simp [hv, hs]

lemma keys_rereadMembers? {ms o : Object} {d : Nat} (h : rereadMembers? ms d = some o) :
    o.keys = Object.keys ms := by
  induction ms generalizing o with
  | nil =>
    cases h
    rfl
  | cons m ms ih =>
    obtain ⟨k, v⟩ := m
    simp only [rereadMembers?, Option.bind_eq_some_iff, Option.map_eq_some_iff] at h
    obtain ⟨w, -, o', ho, rfl⟩ := h
    rw [Object.keys_cons, Object.keys_cons, ih ho]

lemma get?_rereadMembers? {ms o : Object} {d : Nat} (h : rereadMembers? ms d = some o) (k : String) :
    Object.get? o k = (Object.get? ms k).bind (·.reread? d) := by
  induction ms generalizing o with
  | nil =>
    cases h
    rfl
  | cons m ms ih =>
    obtain ⟨l, v⟩ := m
    simp only [rereadMembers?, Option.bind_eq_some_iff, Option.map_eq_some_iff] at h
    obtain ⟨w, hw, o', ho, rfl⟩ := h
    rw [Object.get?_cons, Object.get?_cons, ih ho]
    split_ifs
    · exact hw.symm
    · rfl

end Members

lemma Value.keyed_insert {o : Object} {v : Value} (h : (Value.object o).Keyed) (hv : v.Keyed) (k : String) :
    (Value.object (o.insert k v)).Keyed :=
  ⟨Object.nodup_insert h.1 k v, Object.holds_insert h.2 hv k⟩

lemma Value.reread?_object {o : Object} {d : Nat} {w : Value} (h : (Value.object o).reread? d = some w) :
    ∃ o', w = .object o' := by
  cases d with
  | zero => cases h
  | succ d =>
    obtain ⟨o', -, rfl⟩ := Option.map_eq_some_iff.mp h
    exact ⟨o', rfl⟩

theorem Value.reread?_stable {v : Value} (h : v.Stable) (d : Nat) :
    v.reread? d = if v.depth ≤ d then some v else none := by
  induction v using Value.induct generalizing d with
  | null => rfl
  | bool b => rfl
  | string s => rfl
  | number n =>
    have hn : n.reread? = some n := h
    rw [reread?, hn]
    rfl
  | array vs ih =>
    have hm := holdsItems_iff.mp h
    cases d with
    | zero => rfl
    | succ d =>
      rw [reread?, depth, rereadItems?_whole fun v hv => ih v hv (hm v hv) d]
      by_cases hd : depthItems vs ≤ d <;> simp [hd]
  | object ms ih =>
    have hm := holdsMembers_iff.mp h.2
    cases d with
    | zero => rfl
    | succ d =>
      rw [reread?, depth, rereadMembers?_whole fun m h => ih m h (hm m h) d]
      by_cases hd : depthMembers ms ≤ d <;> simp [hd]

lemma Value.Whole.stable {v : Value} (h : v.Whole) : v.Stable := by
  refine Holds.imp ?_ (fun _ _ => trivial) h
  rintro _ ⟨i, rfl⟩
  rfl

theorem Value.reread?_whole {v : Value} (h : v.Whole) (d : Nat) :
    v.reread? d = if v.depth ≤ d then some v else none :=
  reread?_stable h.stable d

structure Value.Fits (d : Nat) (v : Value) : Prop where
  stable : v.Stable
  depth_le : v.depth ≤ d

namespace Value.Fits

variable {d e : Nat} {v : Value}

lemma reread? (h : v.Fits d) : v.reread? d = some v := by
  rw [reread?_stable h.stable, if_pos h.depth_le]

lemma mono (h : v.Fits d) (hd : d ≤ e) : v.Fits e := ⟨h.stable, Nat.le_trans h.depth_le hd⟩

lemma string (d : Nat) (s : String) : (Value.string s).Fits d := ⟨trivial, Nat.zero_le d⟩

lemma object_iff {o : Object} : (Value.object o).Fits (d + 1) ↔ o.All (Fits d) := by
  constructor
  · intro h m hm
    exact ⟨holdsMembers_iff.mp h.stable.2 m hm,
      depthMembers_le_iff.mp (Nat.le_of_succ_le_succ h.depth_le) m hm⟩
  · intro h
    exact ⟨⟨trivial, holdsMembers_iff.mpr fun m hm => (h m hm).stable⟩,
      Nat.succ_le_succ (depthMembers_le_iff.mpr fun m hm => (h m hm).depth_le)⟩

end Value.Fits

end DumpImport.Json
