import DumpImport.Proofs.Record.CanonicalDate
import DumpImport.Proofs.Record.Mapping
import DumpImport.Proofs.Text.Padding
import DumpImport.Proofs.Time.Zones

namespace DumpImport.Record

open Json
open Text (Closed Padded trim trim_padded)

section Dates

variable {d : String} {t : Time.Instant}

lemma closed_of_date (h : parseDate d = .ok t) : Closed d := Time.read_last (parseDate_eq_ok.mp h)

lemma parseDate_trim {x : String} (hx : Padded d x) (h : parseDate d = .ok t) :
    parseDate (trim x) = .ok t := by
  rw [trim_padded hx (closed_of_date h), parseDate_eq_ok, Time.read_dropBlank]
  exact parseDate_eq_ok.mp h

lemma parseDate_trim_append {w x : String} (hx : Padded w x) (h : parseDate (w ++ "Z") = .ok t) :
    parseDate (trim x ++ "Z") = .ok t := by
  have hm := Time.read_append_utc.mp (parseDate_eq_ok.mp h)
  rw [trim_padded hx (Time.moment_last hm), parseDate_eq_ok, Time.read_append_utc, String.toList_ofList,
    Time.moment_dropBlank]
  exact hm

lemma millisOf_of_parseDate (h : parseDate d = .ok t) : millisOf d = .ok t.millis := by
  rw [millisOf, h]
  rfl

lemma millis_bounds (h : parseDate d = .ok t) :
    -0x8000000000000000 ≤ t.millis ∧ t.millis ≤ 0x7FFFFFFFFFFFFFFF :=
  (Time.readAs_regular (parseDate_eq_ok.mp h)).millis_bounds

end Dates

namespace Window

inductive IsBound : Option String → Option Int → Prop where
  | unset : IsBound none none
  | blank {s} (empty : trim s = "") : IsBound (some s) none
  | dated {s t} (date : parseDate (trim s) = .ok t) : IsBound (some s) (some t.millis)
  | zoneless {s t} (date : parseDate (trim s ++ "Z") = .ok t) : IsBound (some s) (some t.millis)

lemma bound_of_readAs {s : String} {t : Time.Instant}
    (h : Time.readAs [.none, .utc, .offset] (trim s) = some t) : bound (some s) = .ok (some t.millis) := by
  have hn : trim s ≠ "" := fun he => by
    rw [he] at h
    cases h
  simp only [bound, if_neg hn, h]

lemma bound_eq_ok {x : Option String} {a : Option Int} : bound x = .ok a ↔ IsBound x a := by
  constructor
  · intro h
    cases x with
    | none =>
      cases h
      exact .unset
    | some s =>
      simp only [bound] at h
      split_ifs at h with he
      · cases h
        exact .blank he
      · split at h
        · rename_i t ht
          cases h
          rcases Time.readAs_eq_some.mp ht with hr | hr
          · exact .dated (parseDate_eq_ok.mpr hr)
          · exact .zoneless (parseDate_eq_ok.mpr hr)
        · cases h
  · intro h
    cases h with
    | unset => rfl
    | blank empty => exact if_pos empty
    | dated date => exact bound_of_readAs (Time.readAs_eq_some.mpr (.inl (parseDate_eq_ok.mp date)))
    | zoneless date => exact bound_of_readAs (Time.readAs_eq_some.mpr (.inr (parseDate_eq_ok.mp date)))

lemma ofBounds_eq_ok {lo hi : Option String} {w : Window} :
    ofBounds lo hi = .ok w ↔ ∃ a b, bound lo = .ok a ∧ bound hi = .ok b ∧ w = of a b := by
  constructor
  · intro h
    obtain ⟨a, ha, h⟩ := bind_eq_ok.mp h
    obtain ⟨b, hb, h⟩ := bind_eq_ok.mp h
    cases h
    exact ⟨a, b, ha, hb, rfl⟩
  · rintro ⟨a, b, ha, hb, rfl⟩
    exact bind_eq_ok.mpr ⟨a, ha, bind_eq_ok.mpr ⟨b, hb, rfl⟩⟩

end Window

section Verdicts

def Early (a : Option Int) (t : Int) : Prop := (∃ m ∈ a, t < m) ∧ t ≠ epochMillis

def Late (b : Option Int) (t : Int) : Prop := ∃ n ∈ b, n < t

variable {a b : Option Int} {t : Int}

lemma early_iff (ht : -0x8000000000000000 ≤ t) :
    (t < a.getD (-0x8000000000000000) ∧ t ≠ epochMillis) ↔ Early a t := by
  cases a with
  | none => simp [Early, ht]
  | some m => simp [Early]

lemma late_iff (ht : t ≤ 0x7FFFFFFFFFFFFFFF) : b.getD 0x7FFFFFFFFFFFFFFF < t ↔ Late b t := by
  cases b with
  | none => simp [Late, ht]
  | some n => simp [Late]

lemma classify_of (ht : -0x8000000000000000 ≤ t ∧ t ≤ 0x7FFFFFFFFFFFFFFF) :
    ((Window.of a b).classify t = .tooEarly ↔ Early a t) ∧
      ((Window.of a b).classify t = .tooLate ↔ ¬ Early a t ∧ Late b t) ∧
      ((Window.of a b).classify t = .keep ↔ ¬ Early a t ∧ ¬ Late b t) := by
  rw [← early_iff ht.1, ← late_iff ht.2]
  simp only [Window.classify, classify, Window.of]
  by_cases he : t < a.getD (-0x8000000000000000) ∧ t ≠ epochMillis
  · simp [he]
  · by_cases hl : b.getD 0x7FFFFFFFFFFFFFFF < t <;> simp [he, hl]

lemma not_early_of_bound (h : ∀ m ∈ a, m ≤ t) : ¬ Early a t := by
  rintro ⟨⟨m, hm, hlt⟩, -⟩
  have := h m hm
  omega

lemma not_late_of_bound (h : ∀ n ∈ b, t ≤ n) : ¬ Late b t := by
  rintro ⟨n, hn, hlt⟩
  have := h n hn
  omega

lemma within_of_bound (hab : ∀ m ∈ a, ∀ n ∈ b, m ≤ n) (h : a = some t ∨ b = some t) :
    ¬ Early a t ∧ ¬ Late b t := by
  rcases h with rfl | rfl
  · refine ⟨not_early_of_bound ?_, not_late_of_bound (hab t rfl)⟩
    rintro m ⟨⟩
    exact Int.le_refl t
  · refine ⟨not_early_of_bound fun m hm => hab m hm t rfl, not_late_of_bound ?_⟩
    rintro n ⟨⟩
    exact Int.le_refl t

lemma Early.of_lower {a' : Option Int} (h : Early a' t) (hl : ∀ m' ∈ a', ∃ m ∈ a, m' ≤ m) : Early a t := by
  obtain ⟨⟨m', hm', hlt⟩, he⟩ := h
  obtain ⟨m, hm, hle⟩ := hl m' hm'
  exact ⟨⟨m, hm, Int.lt_of_lt_of_le hlt hle⟩, he⟩

lemma Late.of_higher {b' : Option Int} (h : Late b' t) (hh : ∀ n' ∈ b', ∃ n ∈ b, n ≤ n') : Late b t := by
  obtain ⟨n', hn', hlt⟩ := h
  obtain ⟨n, hn, hle⟩ := hh n' hn'
  exact ⟨n, hn, Int.lt_of_le_of_lt hle hlt⟩

end Verdicts

lemma verdict_of_map {m : Mapper} {c : Dump.Collection} {dr : Draw} {line : String} {r : Mapped} {e : Value}
    {d : String} {t : Time.Instant} (h : m.map c dr line = .ok r) (he : parse r.envelope = .ok e)
    (hd : e.at? ["message", Field.lastModified] = some (.string d)) (ht : parseDate d = .ok t) :
    r.verdict = m.window.classify t.millis := by
  obtain ⟨p, body, v, w, k, hp, hm⟩ := Mapper.maps_of_map h
  obtain ⟨o, u, flat, hpr⟩ := prepares_of_prepare hp
  cases hm.parse_envelope.symm.trans he
  rw [Envelope.at?_lastModified] at hd
  have hx : p.dates.lastModified.text = d := by
    cases hd
    rfl
  have hv := hpr.version
  rw [hx, millisOf_of_parseDate ht] at hv
  rw [hm.verdict, ← Except.ok.inj hv]

/-- Whatever can be read as a date is the same date as a bound, also with white space around it and,
in UTC, without its zone. The verdict on a record of that date is the one that its bounds say. -/
theorem bounds_read_as_dates {d : String} {t : Time.Instant} (h : parseDate d = .ok t) :
    millisOf d = .ok t.millis ∧
      (∀ x y, Padded d x → Padded d y → Window.ofBounds (some x) (some y) = .ok ⟨t.millis, t.millis⟩) ∧
      (∀ w, w ++ "Z" = d → ∀ x y, Padded w x → Padded d y →
        Window.bound (some x) = .ok (some t.millis) ∧ Window.bound (some y) = .ok (some t.millis)) ∧
      ∀ lo hi win, Window.ofBounds lo hi = .ok win →
        ∃ a b, Window.bound lo = .ok a ∧ Window.bound hi = .ok b ∧
        Window.IsBound lo a ∧ Window.IsBound hi b ∧
        (win.classify t.millis = .tooEarly ↔ Early a t.millis) ∧
        (win.classify t.millis = .tooLate ↔ ¬ Early a t.millis ∧ Late b t.millis) ∧
        (win.classify t.millis = .keep ↔ ¬ Early a t.millis ∧ ¬ Late b t.millis) ∧
        ((∀ m ∈ a, ∀ n ∈ b, m ≤ n) → a = some t.millis ∨ b = some t.millis → win.classify t.millis = .keep) ∧
        (∀ lo' hi' win' a' b', Window.ofBounds lo' hi' = .ok win' → Window.IsBound lo' a' →
          Window.IsBound hi' b' → (∀ m' ∈ a', ∃ m ∈ a, m' ≤ m) → (∀ n' ∈ b', ∃ n ∈ b, n ≤ n') →
          win.classify t.millis = .keep → win'.classify t.millis = .keep) ∧
        ∀ (m : Mapper) (c : Dump.Collection) (dr : Draw) (line : String) (r : Mapped) (e : Value),
          m.window = win → m.map c dr line = .ok r → parse r.envelope = .ok e →
          e.at? ["message", Field.lastModified] = some (.string d) → r.verdict = win.classify t.millis := by
  have hr := millis_bounds h
  have hpad : ∀ x, Padded d x → Window.bound (some x) = .ok (some t.millis) :=
    fun x hx => Window.bound_eq_ok.mpr (.dated (parseDate_trim hx h))
  refine ⟨millisOf_of_parseDate h, fun x y hx hy => ?_, ?_, fun lo hi win hwin => ?_⟩
  · exact Window.ofBounds_eq_ok.mpr ⟨_, _, hpad x hx, hpad y hy, rfl⟩
  · rintro w rfl x y hx hy
    exact ⟨Window.bound_eq_ok.mpr (.zoneless (parseDate_trim_append hx h)), hpad y hy⟩
  · obtain ⟨a, b, ha, hb, rfl⟩ := Window.ofBounds_eq_ok.mp hwin
    obtain ⟨hearly, hlate, hkeep⟩ := classify_of (a := a) (b := b) hr
    refine ⟨a, b, ha, hb, Window.bound_eq_ok.mp ha, Window.bound_eq_ok.mp hb, hearly, hlate, hkeep,
      fun hab hat => hkeep.mpr (within_of_bound hab hat), ?_, ?_⟩
    · intro lo' hi' win' a' b' hwin' ha' hb' hlo hhi hk
      obtain ⟨a'', b'', hx, hy, rfl⟩ := Window.ofBounds_eq_ok.mp hwin'
      cases (Window.bound_eq_ok.mpr ha').symm.trans hx
      cases (Window.bound_eq_ok.mpr hb').symm.trans hy
      obtain ⟨hne, hnl⟩ := hkeep.mp hk
      exact (classify_of hr).2.2.mpr ⟨fun he => hne (he.of_lower hlo), fun hl => hnl (hl.of_higher hhi)⟩
    · rintro m c dr line r e hm hmap he hd
      rw [verdict_of_map hmap he hd h, hm]

theorem bounds_read_as_dates_fraction :
    parseDate "1969-12-31T23:59:59.9995Z" = .ok ⟨-1, 999500000⟩ ∧
      Window.ofBounds (some " 1969-12-31T23:59:59.9995Z") (some "1969-12-31T23:59:59.9995Z\n") =
        .ok ⟨-1, -1⟩ ∧
      Window.bound (some "1969-12-31T23:59:59.9995") = .ok (some (-1)) ∧
      ∀ win, Window.ofBounds (some "1969-12-31T23:59:59.9995") none = .ok win →
        win.classify (-1) = .keep := by
  have h : parseDate "1969-12-31T23:59:59.9995Z" = .ok ⟨-1, 999500000⟩ := by decide +kernel
  obtain ⟨-, hpad, hzone, hwin⟩ := bounds_read_as_dates h
  have hself (s : String) : Padded s s := ⟨[], [], by simp, by simp, by simp⟩
  have hb := (hzone "1969-12-31T23:59:59.9995" rfl _ _ (hself _) (hself _)).1
  have hbefore : Padded "1969-12-31T23:59:59.9995Z" " 1969-12-31T23:59:59.9995Z" :=
    ⟨[' '], [], List.forall_mem_singleton.mpr (by decide), by simp, by decide +kernel⟩
  have hafter : Padded "1969-12-31T23:59:59.9995Z" "1969-12-31T23:59:59.9995Z\n" :=
    ⟨[], ['\n'], by simp, List.forall_mem_singleton.mpr (by decide), by decide +kernel⟩
  refine ⟨h, hpad _ _ hbefore hafter, hb, fun win hw => ?_⟩
  obtain ⟨a, b, ha, hn, -, -, -, -, -, hkeep, -⟩ := hwin _ none win hw
  cases hb.symm.trans ha
  cases hn
  exact hkeep (fun m _ n hn => nomatch hn) (.inl rfl)

end DumpImport.Record
