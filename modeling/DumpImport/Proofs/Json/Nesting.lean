import DumpImport.Proofs.Json.Doubles
import DumpImport.Proofs.Json.Parsed
import DumpImport.Proofs.Json.RoundTrip

namespace DumpImport.Json

def Number.Valid : Number → Prop
  | .int _ => True
  | .double x => x.mag.Valid

section Numbers

variable {negative : Bool} {s : Scaled} {bs r : Bytes} {n : Number}

lemma valid_of_scaled (h : s.number negative bs = .ok (n, r)) : n.Valid := by
  rw [Scaled.number] at h
  split at h
  · rename_i m hm
    cases h
    obtain ⟨y, hy, hm⟩ := Option.bind_eq_some_iff.mp hm
    have hy' := (Magnitude.ofNat_roundsTo s.significand).rounds y hy
    exact Magnitude.valid_of_scaleTen hy'.valid hm
  · cases h

lemma valid_of_exponent (h : exponent negative s bs = .ok (n, r)) : n.Valid := by
  unfold exponent at h
  split at h
  split at h
  · cases h
  · rename_i b t _
    by_cases hd : isDigit b = true
    · rw [if_pos hd] at h
      split at h
      split at h
      · exact valid_of_scaled h
      · split_ifs at h
        cases h
        exact Magnitude.zero_rounds.valid
    · rw [if_neg hd] at h
      cases h

lemma valid_of_decimals (h : decimals negative s bs = .ok (n, r)) : n.Valid := by
  simp only [decimals] at h
  split at h
  · cases h
  · cases h
  · split_ifs at h
    · exact valid_of_exponent h
    · exact valid_of_scaled h
  · exact valid_of_scaled h

lemma valid_of_wholeNumber (h : wholeNumber negative s bs = .ok (n, r)) : n.Valid := by
  simp only [wholeNumber] at h
  split at h
  · split_ifs at h
    · exact valid_of_scaled h
    · cases h
      trivial
  · exact valid_of_scaled h

lemma valid_of_number (h : number negative bs = .ok (n, r)) : n.Valid := by
  unfold number at h
  split at h
  · cases h
  · split_ifs at h
    all_goals
      simp only at h
      split at h
      · exact valid_of_wholeNumber h
      · split_ifs at h
        · exact valid_of_decimals h
        · exact valid_of_exponent h
        · exact valid_of_wholeNumber h

lemma Number.Valid.exists_reread (h : n.Valid) : ∃ m, n.reread? = some m := by
  cases n with
  | int i => exact ⟨.int i, rfl⟩
  | double x => exact Json.exists_reread h

end Numbers

section Values

variable {d : Nat}

lemma rereadItems?_depth {vs ws : List Value}
    (ih : ∀ v ∈ vs, ∀ w, v.reread? d = some w → v.depth ≤ d ∧ w.depth = v.depth)
    (h : rereadItems? vs d = some ws) : depthItems vs ≤ d ∧ depthItems ws = depthItems vs := by
  induction vs generalizing ws with
  | nil =>
    cases h
    exact ⟨Nat.zero_le d, rfl⟩
  | cons v vs ih' =>
    rw [List.forall_mem_cons] at ih
    simp only [rereadItems?, Option.bind_eq_some_iff, Option.map_eq_some_iff] at h
    obtain ⟨w, hw, us, hus, rfl⟩ := h
    obtain ⟨hv, hwv⟩ := ih.1 w hw
    obtain ⟨hvs, husvs⟩ := ih' ih.2 hus
    exact ⟨Nat.max_le.mpr ⟨hv, hvs⟩, by rw [depthItems, depthItems, hwv, husvs]⟩

lemma rereadMembers?_depth {ms o : Object}
    (ih : ∀ m ∈ ms, ∀ w, m.2.reread? d = some w → m.2.depth ≤ d ∧ w.depth = m.2.depth)
    (h : rereadMembers? ms d = some o) : depthMembers ms ≤ d ∧ depthMembers o = depthMembers ms := by
  induction ms generalizing o with
  | nil =>
    cases h
    exact ⟨Nat.zero_le d, rfl⟩
  | cons m ms ih' =>
    obtain ⟨k, v⟩ := m
    rw [List.forall_mem_cons] at ih
    simp only [rereadMembers?, Option.bind_eq_some_iff, Option.map_eq_some_iff] at h
    obtain ⟨w, hw, us, hus, rfl⟩ := h
    obtain ⟨hv, hwv⟩ := ih.1 w hw
    obtain ⟨hvs, husvs⟩ := ih' ih.2 hus
    exact ⟨Nat.max_le.mpr ⟨hv, hvs⟩, by rw [depthMembers, depthMembers, hwv, husvs]⟩

theorem Value.depth_of_reread? {v w : Value} (h : v.reread? d = some w) :
    v.depth ≤ d ∧ w.depth = v.depth := by
  induction v using Value.induct generalizing d w with
  | null | bool | string =>
    cases h
    exact ⟨Nat.zero_le d, rfl⟩
  | number n =>
    obtain ⟨m, -, rfl⟩ := Option.map_eq_some_iff.mp h
    exact ⟨Nat.zero_le d, rfl⟩
  | array vs ih =>
    cases d with
    | zero => cases h
    | succ d =>
      obtain ⟨ws, hws, rfl⟩ := Option.map_eq_some_iff.mp h
      obtain ⟨hle, heq⟩ := rereadItems?_depth (fun v hv w hw => ih v hv hw) hws
      exact ⟨Nat.succ_le_succ hle, congrArg (· + 1) heq⟩
  | object ms ih =>
    cases d with
    | zero => cases h
    | succ d =>
      obtain ⟨o, ho, rfl⟩ := Option.map_eq_some_iff.mp h
      obtain ⟨hle, heq⟩ := rereadMembers?_depth (fun m hm w hw => ih m hm hw) ho
      exact ⟨Nat.succ_le_succ hle, congrArg (· + 1) heq⟩

lemma exists_rereadItems? {vs : List Value} (h : ∀ v ∈ vs, ∃ w, v.reread? d = some w) :
    ∃ ws, rereadItems? vs d = some ws := by
  induction vs with
  | nil => exact ⟨[], rfl⟩
  | cons v vs ih =>
    rw [List.forall_mem_cons] at h
    obtain ⟨⟨w, hw⟩, hvs⟩ := h
    obtain ⟨ws, hws⟩ := ih hvs
    exact ⟨w :: ws, by rw [rereadItems?, hw, Option.bind_some, hws, Option.map_some]⟩

lemma exists_rereadMembers? {ms : Object} (h : ∀ m ∈ ms, ∃ w, m.2.reread? d = some w) :
    ∃ o, rereadMembers? ms d = some o := by
  induction ms with
  | nil => exact ⟨[], rfl⟩
  | cons m ms ih =>
    obtain ⟨k, v⟩ := m
    rw [List.forall_mem_cons] at h
    obtain ⟨⟨w, hw⟩, hms⟩ := h
    obtain ⟨o, ho⟩ := ih hms
    exact ⟨(k, w) :: o, by rw [rereadMembers?, hw, Option.bind_some, ho, Option.map_some]⟩

namespace Value

def Valid (v : Value) : Prop := v.Holds Number.Valid (fun _ => True)

variable {v : Value}

lemma IsRead.valid (h : v.IsRead d) : v.Valid := h.holds fun _ _ _ _ => valid_of_number

theorem exists_reread?_iff (hv : v.Valid) : (∃ w, v.reread? d = some w) ↔ v.depth ≤ d := by
  refine ⟨fun ⟨w, hw⟩ => (depth_of_reread? hw).1, fun hd => ?_⟩
  induction v using Value.induct generalizing d with
  | null | bool | string => exact ⟨_, rfl⟩
  | number n =>
    have hn : n.Valid := hv
    obtain ⟨m, hm⟩ := hn.exists_reread
    exact ⟨.number m, by rw [reread?, hm, Option.map_some]⟩
  | array vs ih =>
    have hvs := holdsItems_iff.mp hv
    obtain ⟨e, rfl⟩ :=
      Nat.exists_eq_add_one_of_ne_zero (Nat.ne_of_gt (Nat.lt_of_lt_of_le (Nat.succ_pos _) hd))
    have hle := depthItems_le_iff.mp (Nat.le_of_succ_le_succ hd)
    obtain ⟨ws, hws⟩ := exists_rereadItems? fun u hu => ih u hu (hvs u hu) (hle u hu)
    exact ⟨.array ws, by rw [reread?, hws, Option.map_some]⟩
  | object ms ih =>
    have hms := holdsMembers_iff.mp hv.2
    obtain ⟨e, rfl⟩ :=
      Nat.exists_eq_add_one_of_ne_zero (Nat.ne_of_gt (Nat.lt_of_lt_of_le (Nat.succ_pos _) hd))
    have hle := depthMembers_le_iff.mp (Nat.le_of_succ_le_succ hd)
    obtain ⟨o, ho⟩ := exists_rereadMembers? fun m hm => ih m hm (hms m hm) (hle m hm)
    exact ⟨.object o, by rw [reread?, ho, Option.map_some]⟩

theorem exists_parse_compact (hk : v.Keyed) (hv : v.Valid) (hd : v.depth ≤ maxDepth) :
    ∃ w, parse v.compact = .ok w ∧ w.depth = v.depth := by
  obtain ⟨w, hw⟩ := (exists_reread?_iff hv).mpr hd
  exact ⟨w, (parse_compact hk).mpr hw, (depth_of_reread? hw).2⟩

end Value

end Values

end DumpImport.Json
