import DumpImport.Proofs.Outcome
import DumpImport.Settings.Basic
import Mathlib.Tactic.GCongr
import Mathlib.Tactic.NormNum
import Mathlib.Tactic.Ring

namespace DumpImport

namespace Time

section Words

variable {a b c : UInt64}

lemma plus?_eq_some : plus? a b = some c ↔ c.toNat = a.toNat + b.toNat := by
  have hc := c.toNat_lt
  rw [plus?]
  split_ifs with h
  · rw [Option.some_inj, ← UInt64.toNat_inj, UInt64.toNat_add, Nat.mod_eq_of_lt h, eq_comm]
  · exact iff_of_false id fun he => h (he ▸ hc)

lemma times?_eq_some : times? a b = some c ↔ c.toNat = a.toNat * b.toNat := by
  have hc := c.toNat_lt
  rw [times?]
  split_ifs with h
  · rw [Option.some_inj, ← UInt64.toNat_inj, UInt64.toNat_mul, Nat.mod_eq_of_lt h, eq_comm]
  · exact iff_of_false id fun he => h (he ▸ hc)

lemma toNat_mul_widened (a b : UInt32) : (a.toUInt64 * b.toUInt64).toNat = a.toNat * b.toNat := by
  have h : a.toNat * b.toNat < 2 ^ 64 :=
    calc a.toNat * b.toNat < 2 ^ 32 * 2 ^ 32 := Nat.mul_lt_mul'' a.toNat_lt b.toNat_lt
      _ = 2 ^ 64 := by norm_num
  rw [UInt64.toNat_mul, UInt32.toNat_toUInt64, UInt32.toNat_toUInt64, Nat.mod_eq_of_lt h]

end Words

namespace Span

variable (d : Span) (k : UInt32)

lemma nanos_lt : d.nanos < 10 ^ 9 := d.fraction_lt

lemma total_longest : longest.total = 2 ^ 64 * 10 ^ 9 - 1 := rfl

lemma total_le : d.total ≤ longest.total := by
  have hs : d.secs < 2 ^ 64 := d.seconds.toNat_lt
  have hn := d.nanos_lt
  rw [total_longest, total]
  omega

lemma total_ofMillis (ms : UInt64) : (ofMillis ms).total = ms.toNat * 10 ^ 6 := by
  simp only [ofMillis, total, secs, nanos, toNat_fraction_of_millis, UInt64.toNat_div, UInt64.reduceToNat]
  omega

lemma carried_eq_some {s : UInt64} :
    (times? d.seconds k.toUInt64).bind (plus? · (d.fraction.toUInt64 * k.toUInt64 / 1000000000)) = some s ↔
      s.toNat = d.secs * k.toNat + d.nanos * k.toNat / 1000000000 := by
  have hcarry : (d.fraction.toUInt64 * k.toUInt64 / 1000000000).toNat = d.nanos * k.toNat / 1000000000 := by
    simp only [UInt64.toNat_div, toNat_mul_widened, nanos, UInt64.reduceToNat]
  simp only [Option.bind_eq_some_iff, times?_eq_some, plus?_eq_some, hcarry, UInt32.toNat_toUInt64]
  constructor
  · rintro ⟨t, ht, hs⟩
    rw [hs, ht, secs]
  · intro hs
    have hlt : d.secs * k.toNat < 2 ^ 64 := by
      have := s.toNat_lt
      omega
    have ht : (UInt64.ofNat (d.secs * k.toNat)).toNat = d.secs * k.toNat := UInt64.toNat_ofNat_of_lt' hlt
    exact ⟨.ofNat (d.secs * k.toNat), ht, by rw [ht, hs]⟩

lemma total_scale : (d.scale k).total = min (d.total * k.toNat) longest.total := by
  have hparts : d.total * k.toNat = d.secs * k.toNat * 1000000000 + d.nanos * k.toNat := by
    rw [total]
    ring
  rcases hs : (times? d.seconds k.toUInt64).bind
    (plus? · (d.fraction.toUInt64 * k.toUInt64 / 1000000000)) with _ | s
  · have hscale : d.scale k = longest := by
      rw [scale, hs]
    have hbeyond : 2 ^ 64 ≤ d.secs * k.toNat + d.nanos * k.toNat / 1000000000 := by
      by_contra hlt
      have hword := UInt64.toNat_ofNat_of_lt' (Nat.lt_of_not_le hlt)
      cases hs.symm.trans ((carried_eq_some d k).mpr hword)
    have hle : longest.total ≤ d.total * k.toNat := by
      rw [total_longest, hparts]
      omega
    rw [hscale, min_eq_right hle]
  · have hexact : (d.scale k).total = d.total * k.toNat := by
      have hsecs := (carried_eq_some d k).mp hs
      rw [scale, hs]
      simp only [total, secs, nanos, toNat_fraction_of_nanos, toNat_mul_widened]
      rw [total, secs, nanos] at hparts
      rw [secs, nanos] at hsecs
      omega
    rw [← hexact, min_eq_left (total_le _)]

end Span

end Time

namespace Retry

namespace Policy

lemma toNat_factor (n multiplier : UInt32) :
    (factor n multiplier).toNat = min (n.toNat * multiplier.toNat) (2 ^ 32 - 1) := by
  have htop : topFactor.toUInt64.toNat = 2 ^ 32 - 1 := rfl
  rw [factor]
  simp only [UInt64.le_iff_toNat_le, Time.toNat_mul_widened, htop]
  split_ifs with h
  · rw [UInt64.toNat_toUInt32, Time.toNat_mul_widened, min_eq_left h]
    omega
  · rw [min_eq_right (Nat.le_of_not_le h)]
    rfl

variable {p : Policy} {m n : UInt32}

lemma total_delay (h : n ≠ 0) : (p.delay n).total =
    min (p.initial.total * min (n.toNat * p.multiplier.toNat) (2 ^ 32 - 1)) (2 ^ 64 * 10 ^ 9 - 1) := by
  rw [delay, if_neg h, Time.Span.total_scale, toNat_factor, Time.Span.total_longest]

lemma one_le_iff : 1 ≤ n ↔ n ≠ 0 := by
  rw [UInt32.le_iff_toNat_le, Ne, ← UInt32.toNat_inj, UInt32.toNat_one, UInt32.toNat_zero]
  omega

lemma delay_le_delay (hm : 1 ≤ m) (hmn : m ≤ n) : (p.delay m).total ≤ (p.delay n).total := by
  have hle : m.toNat ≤ n.toNat := UInt32.le_iff_toNat_le.mp hmn
  rw [total_delay (one_le_iff.mp hm), total_delay (one_le_iff.mp (UInt32.le_trans hm hmn))]
  gcongr

lemma initial_le_delay (hp : 1 ≤ p.multiplier) : p.initial.total ≤ (p.delay n).total := by
  by_cases hn : n = 0
  · rw [delay, if_pos hn]
  · have hone : 1 * 1 ≤ n.toNat * p.multiplier.toNat :=
      Nat.mul_le_mul (UInt32.le_iff_toNat_le.mp (one_le_iff.mpr hn)) (UInt32.le_iff_toNat_le.mp hp)
    have hfactor : 1 ≤ min (n.toNat * p.multiplier.toNat) (2 ^ 32 - 1) := le_min hone (by norm_num)
    rw [total_delay hn]
    exact le_min (Nat.le_mul_of_pos_right _ hfactor) p.initial.total_le

lemma initial_of (maxAttempts multiplier : UInt32) (d : Time.Span) :
    (of maxAttempts d multiplier).initial = d := by
  rw [of]
  split_ifs <;> rfl

lemma multiplier_of (maxAttempts multiplier : UInt32) (d : Time.Span) :
    (of maxAttempts d multiplier).multiplier = multiplier := by
  rw [of]
  split_ifs <;> rfl

end Policy

lemma retry_of_read {env : Settings.Environment} {s : Settings} (h : Settings.read env = .ok s) :
    ∃ maxAttempts ms multiplier, s.retry = .of maxAttempts (.ofMillis ms) multiplier := by
  obtain ⟨timeout, -, h⟩ := bind_eq_ok.mp h
  obtain ⟨maxAttempts, -, h⟩ := bind_eq_ok.mp h
  obtain ⟨initial, hi, h⟩ := bind_eq_ok.mp h
  obtain ⟨multiplier, -, h⟩ := bind_eq_ok.mp h
  obtain ⟨concurrent, -, h⟩ := bind_eq_ok.mp h
  cases h
  rw [Settings.parsed] at hi
  split at hi
  · rename_i d hd
    cases hi
    rw [Settings.span?, Option.map_eq_some_iff] at hd
    obtain ⟨ms, -, rfl⟩ := hd
    exact ⟨maxAttempts, .ofNat ms, multiplier, rfl⟩
  · cases hi

/-- Whatever first wait is set, however waits grow and however often was tried, the wait is the
exact multiple of the first one in nanoseconds or, if that is beyond it, the longest there is; so no
wait is shorter than one before it, but for the first where the multiplier is zero. -/
theorem waits_exact_or_longest :
    (∀ (maxAttempts multiplier : UInt32) (ms : UInt64),
      let p := Policy.of maxAttempts (.ofMillis ms) multiplier
      (p.delay 0).total = ms.toNat * 10 ^ 6 ∧
      (∀ n, n ≠ 0 → (p.delay n).total =
        min (ms.toNat * 10 ^ 6 * min (n.toNat * multiplier.toNat) (2 ^ 32 - 1)) (2 ^ 64 * 10 ^ 9 - 1)) ∧
      (∀ n, (p.delay n).nanos < 10 ^ 9) ∧
      (∀ m n, 1 ≤ m → m ≤ n → (p.delay m).total ≤ (p.delay n).total) ∧
      (1 ≤ multiplier → ∀ m n, m ≤ n → (p.delay m).total ≤ (p.delay n).total)) ∧
    ∀ env s, Settings.read env = .ok s →
      ∃ maxAttempts ms multiplier, s.retry = .of maxAttempts (.ofMillis ms) multiplier := by
  refine ⟨fun maxAttempts multiplier ms => ?_, fun env s => retry_of_read⟩
  intro p
  have hinitial : p.initial.total = ms.toNat * 10 ^ 6 := by
    rw [Policy.initial_of, Time.Span.total_ofMillis]
  refine ⟨hinitial, fun n hn => ?_, fun n => (p.delay n).nanos_lt, fun m n => Policy.delay_le_delay, ?_⟩
  · rw [Policy.total_delay hn, hinitial, Policy.multiplier_of]
  · intro hmult m n hmn
    have hp : 1 ≤ p.multiplier := by rwa [Policy.multiplier_of]
    by_cases hm : m = 0
    · subst hm
      exact Policy.initial_le_delay hp
    · exact Policy.delay_le_delay (Policy.one_le_iff.mpr hm) hmn

lemma read_nothing : (Settings.read fun _ => none).toOption.isSome = true := by
  decide +kernel

theorem waits_exact_or_longest_carried :
    ((Policy.of 5 (.ofMillis 1500) 3).delay 1).total = 4500000000 ∧
    ((Policy.of 5 (.ofMillis 0xFFFFFFFFFFFFFFFF) 0xFFFFFFFF).delay 2).total = 2 ^ 64 * 10 ^ 9 - 1 ∧
    ((Policy.of 5 (.ofMillis 1500) 3).delay 0).total ≤ ((Policy.of 5 (.ofMillis 1500) 3).delay 1).total ∧
    ((Policy.of 5 (.ofMillis 1500) 0).delay 1).total ≤ ((Policy.of 5 (.ofMillis 1500) 0).delay 2).total ∧
    ∃ s, Settings.read (fun _ => none) = .ok s ∧
      ∃ maxAttempts ms multiplier, s.retry = .of maxAttempts (.ofMillis ms) multiplier := by
  obtain ⟨hwaits, hread⟩ := waits_exact_or_longest
  obtain ⟨-, hsmall, -, -, hgrows⟩ := hwaits 5 3 1500
  obtain ⟨-, hlarge, -, -, -⟩ := hwaits 5 0xFFFFFFFF 0xFFFFFFFFFFFFFFFF
  obtain ⟨-, -, -, hkept, -⟩ := hwaits 5 0 1500
  obtain ⟨s, hs⟩ := Option.isSome_iff_exists.mp read_nothing
  have hs := toOption_eq_some.mp hs
  exact ⟨(hsmall 1 (by decide)).trans (by simp), (hlarge 2 (by decide)).trans (by simp),
    hgrows (by decide) 0 1 (by decide), hkept 1 2 (by decide) (by decide), s, hs, hread _ s hs⟩

end Retry

end DumpImport
