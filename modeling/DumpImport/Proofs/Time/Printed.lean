import DumpImport.Proofs.Text.Digits
import DumpImport.Proofs.Time.Calendar
import DumpImport.Time.Reader

namespace DumpImport.Time

open Text

section Digits

variable {ds r : List Char}

def Stops (r : List Char) : Prop := ∀ c s, r = c :: s → c.isDigit = false

lemma stops_cons {c : Char} (h : c.isDigit = false) (s : List Char) : Stops (c :: s) := by
  intro d t he
  cases he
  exact h

lemma isDigit_eq (c : Char) : isDigit c = c.isDigit := by
  rw [Bool.eq_iff_iff]
  simp only [isDigit, Char.isDigit, Bool.and_eq_true, decide_eq_true_eq]
  rfl

lemma decimalValue_eq (ds : List Char) : decimalValue ds = Nat.ofDigitChars 10 ds 0 := by
  simp only [decimalValue, Nat.ofDigitChars, Nat.mul_comm]
  rfl

lemma dropBlank_cons {c : Char} (hc : isBlank c = false) (r : List Char) : dropBlank (c :: r) = c :: r :=
  List.dropWhile_cons_of_neg (by simp [hc])

lemma dropBlank_digits (h : IsDigits ds) (r : List Char) : dropBlank (ds ++ r) = ds ++ r := by
  cases ds with
  | nil => exact absurd rfl h.1
  | cons d ds =>
    have hb := isDigit_bounds h.cons
    have hd : isBlank d = false := by
      simp [isBlank]
      omega
    exact dropBlank_cons hd (ds ++ r)

lemma takeWhile_digits (h : ∀ c ∈ ds, c.isDigit = true) (r : List Char) :
    (ds ++ r).takeWhile isDigit = ds ++ r.takeWhile isDigit :=
  List.takeWhile_append_of_pos fun c hc => by rw [isDigit_eq, h c hc]

lemma digits_none (h : IsDigits ds) (hr : Stops r) : digits none (ds ++ r) = some (ds, r) := by
  have ht : r.takeWhile isDigit = [] := by
    cases r with
    | nil => rfl
    | cons c s => simp [isDigit_eq, hr c s rfl]
  simp [digits, takeWhile_digits h.2, ht, h.1]

lemma digits_some (h : IsDigits ds) (r : List Char) : digits (some ds.length) (ds ++ r) = some (ds, r) := by
  simp [digits, takeWhile_digits h.2, h.1]

lemma digits_isDigit {bound : Option Nat} {cs : List Char} (h : digits bound cs = some (ds, r)) :
    ∀ c ∈ ds, c.isDigit = true := by
  intro c hc
  have hm : c ∈ cs.takeWhile isDigit := by
    cases bound <;>
    · simp only [digits] at h
      split_ifs at h
      cases h
      first
        | exact hc
        | exact List.mem_of_mem_take hc
  rw [← isDigit_eq]
  exact List.all_eq_true.mp List.all_takeWhile c hm

end Digits

section Padded

variable {w n : Nat}

lemma padded_toList (w n : Nat) : (padded w n).toList =
    List.replicate (w - (decimalDigits n).length) '0' ++ decimalDigits n := by
  rw [padded, String.toList_ofList]
  rfl

lemma isDigits_padded (w n : Nat) : IsDigits (padded w n).toList := by
  rw [padded_toList]
  exact isDigits_append (fun _ => isDigit_of_mem_replicate) (isDigits_decimalDigits n)

lemma decimalValue_padded (w n : Nat) : decimalValue (padded w n).toList = n := by
  rw [decimalValue_eq, padded_toList, Nat.ofDigitChars_append, Nat.ofDigitChars_replicate_zero, Nat.mul_zero]
  exact Nat.ofDigitChars_ten_toDigits

lemma length_padded (hw : 0 < w) (hn : n < 10 ^ w) : (padded w n).toList.length = w := by
  have hl := (Nat.length_toDigits_le_iff (by decide) hw).mpr hn
  rw [padded_toList, List.length_append, List.length_replicate, decimalDigits]
  omega

lemma numeral_of_digits {bound : Option Nat} {cs ds r : List Char} (h : digits bound cs = some (ds, r)) :
    numeral bound cs = some (decimalValue ds, r) := by
  rw [numeral, h]
  rfl

lemma numeral_padded (hw : 0 < w) (hn : n < 10 ^ w) (r : List Char) :
    numeral (some w) ((padded w n).toList ++ r) = some (n, r) := by
  have hd := digits_some (isDigits_padded w n) r
  rw [length_padded hw hn] at hd
  rw [numeral_of_digits hd, decimalValue_padded]

lemma numeral_open {r : List Char} (w n : Nat) (hr : Stops r) :
    numeral none ((padded w n).toList ++ r) = some (n, r) := by
  rw [numeral_of_digits (digits_none (isDigits_padded w n) hr), decimalValue_padded]

lemma numeralIn_padded {lo hi : Nat} (hlo : lo ≤ n) (hhi : n ≤ hi) (hi' : hi < 100) (r : List Char) :
    numeralIn lo hi ((padded 2 n).toList ++ r) = some (n, r) := by
  rw [numeralIn, dropBlank_digits (isDigits_padded 2 n), numeral_padded (by decide) (by omega)]
  exact if_pos ⟨hlo, hhi⟩

lemma year_digits {ds : List Char} (h : IsDigits ds) (r : List Char) :
    year (ds ++ r) = (numeral (some 4) (ds ++ r)).map fun (n, r) => ((n : Int), r) := by
  rw [year, dropBlank_digits h]
  cases ds with
  | nil => exact absurd rfl h.1
  | cons d ds =>
    have hd := h.cons
    split
    · rename_i he
      cases he
      exact absurd hd (by decide)
    · rename_i he
      cases he
      exact absurd hd (by decide)
    · rfl

lemma year_minus (n : Nat) {r : List Char} (hr : Stops r) :
    year ('-' :: ((padded 4 n).toList ++ r)) = some (-(n : Int), r) := by
  rw [year, dropBlank_cons (by decide)]
  change (numeral none ((padded 4 n).toList ++ r)).map _ = _
  rw [numeral_open 4 n hr]
  rfl

lemma year_plus (n : Nat) {r : List Char} (hr : Stops r) :
    year ('+' :: ((padded 4 n).toList ++ r)) = some ((n : Int), r) := by
  rw [year, dropBlank_cons (by decide)]
  change (numeral none ((padded 4 n).toList ++ r)).map _ = _
  rw [numeral_open 4 n hr]
  rfl

lemma year_yearText (y : Int) {r : List Char} (hr : Stops r) :
    year ((yearText y).toList ++ r) = some (y, r) := by
  rw [yearText]
  split
  · rename_i h
    rw [year_digits (isDigits_padded 4 _), numeral_padded (by decide) (by omega), Option.map_some]
    simp only [Int.toNat_of_nonneg h.1]
  · rw [String.toList_append]
    split
    · have h := year_minus y.natAbs hr
      rwa [show -(y.natAbs : Int) = y by omega] at h
    · have h := year_plus y.natAbs hr
      rwa [show (y.natAbs : Int) = y by omega] at h

lemma decimalValue_rightpad (k : Nat) (ds : List Char) :
    decimalValue (ds.rightpad k '0') = decimalValue ds * 10 ^ (k - ds.length) := by
  rw [decimalValue_eq, List.rightpad, Nat.ofDigitChars_append, Nat.ofDigitChars_replicate_zero,
    ← decimalValue_eq, Nat.mul_comm]

lemma decimalValue_lt {ds : List Char} (h : ∀ c ∈ ds, c.isDigit = true) :
    decimalValue ds < 10 ^ ds.length := by
  have := ofDigitChars_lt h 0
  rw [decimalValue_eq]
  omega

lemma decimalValue_rightpad_lt {k : Nat} {ds : List Char} (h : ∀ c ∈ ds, c.isDigit = true)
    (hl : ds.length ≤ k) : decimalValue (ds.rightpad k '0') < 10 ^ k := by
  rw [decimalValue_rightpad]
  calc decimalValue ds * 10 ^ (k - ds.length)
      < 10 ^ ds.length * 10 ^ (k - ds.length) :=
        Nat.mul_lt_mul_of_pos_right (decimalValue_lt h) (Nat.pow_pos (by decide))
    _ = 10 ^ k := by rw [← Nat.pow_add, Nat.add_sub_cancel' hl]

lemma fraction_digits {ds r : List Char} (h : IsDigits ds) (hl : ds.length ≤ 9) (hr : Stops r) :
    fraction ('.' :: (ds ++ r)) = some (decimalValue ds * 10 ^ (9 - ds.length), r) := by
  rw [fraction, digits_none h hr, Option.map_some]
  simp only [List.take_of_length_le hl, decimalValue_rightpad]

lemma fraction_padded {ms : Nat} (h : ms < 1000) {r : List Char} (hr : Stops r) :
    fraction ('.' :: ((padded 3 ms).toList ++ r)) = some (ms * 1000000, r) := by
  have hl : (padded 3 ms).toList.length = 3 := length_padded (by decide) h
  have hp : 10 ^ (9 - 3) = 1000000 := rfl
  rw [fraction_digits (isDigits_padded 3 ms) (by omega) hr, decimalValue_padded, hl, hp]

end Padded

lemma Date.Valid.day_le {d : Date} (h : d.Valid) : d.day ≤ 31 := by
  have hl : ∀ b, ∀ l ∈ monthLengths b, l ≤ 31 := by decide
  obtain ⟨-, -, -, hd⟩ := h
  rw [List.getD_eq_getElem?_getD] at hd
  cases hi : (monthLengths (isLeap d.year))[d.month - 1]? with
  | none =>
    rw [hi] at hd
    exact Nat.le_trans hd (by decide)
  | some l =>
    rw [hi] at hd
    exact Nat.le_trans hd (hl _ _ (List.mem_of_getElem? hi))

lemma mark_self (c : Char) (r : List Char) : mark c (c :: r) = some ((), r) := if_pos rfl

def written (d : Date) (hour minute second : Nat) (r : List Char) : List Char :=
  (yearText d.year).toList ++ '-' :: ((padded 2 d.month).toList ++ '-' :: ((padded 2 d.day).toList ++ 'T' ::
    ((padded 2 hour).toList ++ ':' :: ((padded 2 minute).toList ++ ':' :: ((padded 2 second).toList ++ r)))))

lemma written_append (d : Date) (hour minute second : Nat) (f r : List Char) :
    written d hour minute second f ++ r = written d hour minute second (f ++ r) := by
  simp [written]

def Date.at (d : Date) (hour minute second nanos : Nat) : Instant :=
  ⟨d.toDays * 86400 + Clock.toSeconds ⟨hour, minute, if second = 60 then 59 else second⟩,
    if second = 60 then nanos + 1000000000 else nanos⟩

lemma numeralIn_padded_none {lo hi n : Nat} (hn : n ≤ 99) (h : ¬ (lo ≤ n ∧ n ≤ hi)) (r : List Char) :
    numeralIn lo hi ((padded 2 n).toList ++ r) = none := by
  rw [numeralIn, dropBlank_digits (isDigits_padded 2 n), numeral_padded (by decide) (by omega)]
  exact if_neg h

lemma moment_written {d : Date} (hd : d.Valid) (hy : firstYear ≤ d.year ∧ d.year ≤ lastYear)
    {hour minute second nanos : Nat} (hhour : hour ≤ 23) (hminute : minute ≤ 59) (hsecond : second ≤ 60)
    {f r : List Char} (hf : fraction f = some (nanos, r)) :
    moment (written d hour minute second f) = some (d.at hour minute second nanos, r) := by
  have hm : 1 ≤ d.month ∧ d.month ≤ 12 := ⟨hd.1, hd.2.1⟩
  have hday : 1 ≤ d.day ∧ d.day ≤ 31 := ⟨hd.2.2.1, hd.day_le⟩
  rw [written, moment, year_yearText _ (stops_cons (by decide) _)]
  simp only [Option.bind_eq_bind, Option.bind_some, mark_self, numeralIn_padded hm.1 hm.2 (by decide),
    numeralIn_padded hday.1 hday.2 (by decide), numeralIn_padded (Nat.zero_le _) hhour (by decide),
    numeralIn_padded (Nat.zero_le _) hminute (by decide),
    numeralIn_padded (Nat.zero_le _) hsecond (by decide), hf]
  exact if_pos ⟨hy.1, hy.2, hd⟩

lemma moment_unwritten {d : Date} (hv : ¬ d.Valid) (hm : d.month ≤ 99) (hd : d.day ≤ 99)
    {hour minute second nanos : Nat} (hhour : hour ≤ 23) (hminute : minute ≤ 59) (hsecond : second ≤ 60)
    {f r : List Char} (hf : fraction f = some (nanos, r)) :
    moment (written d hour minute second f) = none := by
  rw [written, moment, year_yearText _ (stops_cons (by decide) _)]
  by_cases hmonth : 1 ≤ d.month ∧ d.month ≤ 12
  · by_cases hday : 1 ≤ d.day ∧ d.day ≤ 31
    · simp only [Option.bind_eq_bind, Option.bind_some, mark_self,
        numeralIn_padded hmonth.1 hmonth.2 (by decide), numeralIn_padded hday.1 hday.2 (by decide),
        numeralIn_padded (Nat.zero_le _) hhour (by decide),
        numeralIn_padded (Nat.zero_le _) hminute (by decide),
        numeralIn_padded (Nat.zero_le _) hsecond (by decide), hf]
      exact if_neg fun h => hv h.2.2
    · simp only [Option.bind_eq_bind, Option.bind_some, mark_self,
        numeralIn_padded hmonth.1 hmonth.2 (by decide), numeralIn_padded_none hd hday, Option.bind_none]
  · simp only [Option.bind_eq_bind, Option.bind_some, mark_self,
      numeralIn_padded_none hm hmonth, Option.bind_none]

namespace Instant

def truncated (t : Instant) : Instant := ⟨t.seconds, t.nanos / 1000000 * 1000000⟩

def IsLeap (t : Instant) : Prop := 1000000000 ≤ t.nanos

/-- A leap second is the last of a minute. -/
structure Regular (t : Instant) : Prop where
  nanos_lt : t.nanos < 2000000000
  last_second : t.IsLeap → t.seconds % 60 = 59
  in_range : t.inRange = true

lemma isLeap_truncated (t : Instant) : t.truncated.IsLeap ↔ t.IsLeap := by
  simp only [IsLeap, truncated]
  omega

lemma millis_truncated (t : Instant) : t.truncated.millis = t.millis := by
  simp only [millis, truncated]
  omega

lemma canonical_truncated (t : Instant) : t.truncated.canonical = t.canonical := by
  have hs : t.nanos / 1000000 * 1000000 / 1000000000 = t.nanos / 1000000000 := by omega
  have hm : t.nanos / 1000000 * 1000000 / 1000000 = t.nanos / 1000000 := by omega
  simp only [canonical, stamp, date, clock, truncated, hs, hm]

lemma stamp_toList (t : Instant) : t.stamp.toList = written t.date t.clock.hour t.clock.minute
    (t.clock.second + t.nanos / 1000000000) ('.' :: (padded 3 (t.nanos / 1000000 % 1000)).toList) := by
  simp [stamp, written]

lemma clock_bounds (t : Instant) : t.clock.hour ≤ 23 ∧ t.clock.minute ≤ 59 := by
  simp only [clock, Clock.ofSeconds]
  omega

lemma clock_second (t : Instant) : t.clock.second = (t.seconds % 60).toNat := by
  simp only [clock, Clock.ofSeconds]
  omega

lemma clock_toSeconds (t : Instant) : t.clock.toSeconds = (t.seconds % 86400).toNat := by
  simp only [clock, Clock.ofSeconds, Clock.toSeconds]
  omega

lemma moment_stamp {t : Instant} (h : t.Regular) {r : List Char} (hr : Stops r) :
    moment (t.stamp.toList ++ r) = some (t.truncated, r) := by
  obtain ⟨hn, hl, hy⟩ := h
  simp only [IsLeap] at hl
  simp only [inRange, Bool.and_eq_true, decide_eq_true_eq] at hy
  obtain ⟨hhour, hminute⟩ := t.clock_bounds
  have hs := t.clock_second
  have hv : t.date.Valid := Date.valid_ofDays _
  have hd : t.date.toDays = t.seconds / 86400 := Date.toDays_ofDays _
  rw [stamp_toList, written_append, List.cons_append,
    moment_written hv hy hhour hminute (by omega) (fraction_padded (Nat.mod_lt _ (by decide)) hr)]
  simp only [Option.some.injEq, Prod.mk.injEq, and_true, Date.at, hd, truncated, mk.injEq]
  -- Only a leap second is printed as 60, and only 60 is read as one.
  rcases Nat.lt_or_ge t.nanos 1000000000 with hsmall | hleap
  · have hsec : t.clock.second + t.nanos / 1000000000 = t.clock.second := by omega
    rw [hsec, if_neg (by omega), if_neg (by omega), clock_toSeconds]
    omega
  · have hlast := hl hleap
    have hsec : t.clock.second = 59 := by omega
    rw [if_pos (by omega), if_pos (by omega), ← hsec, clock_toSeconds]
    omega

lemma offset_canonical : Time.offset "+0000".toList = some (0, []) := by decide

lemma zone_canonical {t : Instant} (h : t.inRange = true) : Zone.offset.read t "+0000".toList = some t := by
  rw [Zone.read, offset_canonical]
  simp only [Option.bind_eq_bind, Option.bind_some, Int.sub_zero]
  exact if_pos ⟨trivial, by decide, h⟩

theorem read_canonical {t : Instant} (h : t.Regular) : Time.read t.canonical = some t.truncated := by
  have hm := moment_stamp h (r := "+0000".toList) (stops_cons (by decide) _)
  have hu : Zone.utc.read t.truncated "+0000".toList = none := by
    rw [Zone.read]
    exact if_neg (by decide)
  have ho : Zone.offset.read t.truncated "+0000".toList = some t.truncated := zone_canonical h.in_range
  rw [Time.read, readAs, canonical, String.toList_append, hm]
  simp only [Option.bind_eq_bind, Option.bind_some, List.findSome?, hu, ho]

end Instant

lemma fraction_lt {cs r : List Char} {n : Nat} (h : fraction cs = some (n, r)) : n < 1000000000 := by
  unfold fraction at h
  split at h
  · obtain ⟨⟨ds, s⟩, hd, he⟩ := Option.map_eq_some_iff.mp h
    cases he
    exact decimalValue_rightpad_lt (fun c hc => digits_isDigit hd c (List.mem_of_mem_take hc))
      (List.length_take_le 9 ds)
  · cases h
    decide

lemma numeralIn_le {lo hi n : Nat} {cs r : List Char} (h : numeralIn lo hi cs = some (n, r)) : n ≤ hi := by
  obtain ⟨⟨k, s⟩, -, h⟩ := Option.bind_eq_some_iff.mp h
  simp only at h
  split_ifs at h with hk
  cases h
  exact hk.2

lemma moment_spec {cs r : List Char} {t : Instant} (h : moment cs = some (t, r)) :
    ∃ (d : Date) (hour minute second nanos : Nat), d.Valid ∧ (firstYear ≤ d.year ∧ d.year ≤ lastYear) ∧
      hour ≤ 23 ∧ minute ≤ 59 ∧ second ≤ 60 ∧ nanos < 1000000000 ∧ t = d.at hour minute second nanos := by
  rw [moment] at h
  obtain ⟨⟨y, c₁⟩, -, h⟩ := Option.bind_eq_some_iff.mp h
  obtain ⟨⟨_, c₂⟩, -, h⟩ := Option.bind_eq_some_iff.mp h
  obtain ⟨⟨m, c₃⟩, -, h⟩ := Option.bind_eq_some_iff.mp h
  obtain ⟨⟨_, c₄⟩, -, h⟩ := Option.bind_eq_some_iff.mp h
  obtain ⟨⟨d, c₅⟩, -, h⟩ := Option.bind_eq_some_iff.mp h
  obtain ⟨⟨_, c₆⟩, -, h⟩ := Option.bind_eq_some_iff.mp h
  obtain ⟨⟨hour, c₇⟩, hhour, h⟩ := Option.bind_eq_some_iff.mp h
  obtain ⟨⟨_, c₈⟩, -, h⟩ := Option.bind_eq_some_iff.mp h
  obtain ⟨⟨minute, c₉⟩, hminute, h⟩ := Option.bind_eq_some_iff.mp h
  obtain ⟨⟨_, c₁₀⟩, -, h⟩ := Option.bind_eq_some_iff.mp h
  obtain ⟨⟨second, c₁₁⟩, hsecond, h⟩ := Option.bind_eq_some_iff.mp h
  obtain ⟨⟨nanos, c₁₂⟩, hnanos, h⟩ := Option.bind_eq_some_iff.mp h
  obtain ⟨⟨hfirst, hlast, hv⟩, he⟩ := Option.ite_none_right_eq_some.mp h
  cases he
  exact ⟨⟨y, m, d⟩, hour, minute, second, nanos, hv, ⟨hfirst, hlast⟩, numeralIn_le hhour,
    numeralIn_le hminute, numeralIn_le hsecond, fraction_lt hnanos, rfl⟩

lemma moment_regular {cs r : List Char} {t : Instant} (h : moment cs = some (t, r)) : t.Regular := by
  obtain ⟨d, hour, minute, second, nanos, hv, hy, hhour, hminute, hsecond, hnanos, rfl⟩ := moment_spec h
  have hs : (if second = 60 then 59 else second) ≤ 59 := by split_ifs <;> omega
  have hday : (d.at hour minute second nanos).date = d := by
    have hd : (d.at hour minute second nanos).seconds / 86400 = d.toDays := by
      simp only [Date.at, Clock.toSeconds]
      omega
    rw [Instant.date, hd, Date.ofDays_toDays hv]
  refine ⟨?_, fun hl => ?_, ?_⟩
  · simp only [Date.at]
    split_ifs <;> omega
  · simp only [Instant.IsLeap, Date.at] at hl ⊢
    split_ifs at hl ⊢ with h60
    · simp only [Clock.toSeconds]
      omega
    · omega
  · simp only [Instant.inRange, hday, Bool.and_eq_true, decide_eq_true_eq]
    exact hy

lemma offset_minutes {cs r : List Char} {o : Int} (h : offset cs = some (o, r)) : o % 60 = 0 := by
  unfold offset at h
  split at h <;>
  · obtain ⟨⟨negative, c₁⟩, -, h⟩ := Option.bind_eq_some_iff.mp h
    obtain ⟨⟨hours, c₂⟩, -, h⟩ := Option.bind_eq_some_iff.mp h
    obtain ⟨⟨minutes, c₃⟩, -, h⟩ := Option.bind_eq_some_iff.mp h
    simp only at h
    split_ifs at h <;>
    · cases h
      omega

lemma Zone.read_spec {z : Zone} {t u : Instant} {cs : List Char} (h : z.read t cs = some u) :
    u = t ∨ ∃ o : Int, o % 60 = 0 ∧ u = ⟨t.seconds - o, t.nanos⟩ ∧ u.inRange = true := by
  cases z with
  | none | utc =>
    rw [Zone.read] at h
    split_ifs at h
    exact .inl (Option.some.inj h).symm
  | offset =>
    obtain ⟨⟨o, rest⟩, ho, h⟩ := Option.bind_eq_some_iff.mp h
    obtain ⟨⟨-, -, hin⟩, he⟩ := Option.ite_none_right_eq_some.mp h
    cases he
    exact .inr ⟨o, offset_minutes ho, rfl, hin⟩

theorem readAs_regular {zones : List Zone} {s : String} {t : Instant} (h : readAs zones s = some t) :
    t.Regular := by
  obtain ⟨⟨m, cs⟩, hm, h⟩ := Option.bind_eq_some_iff.mp h
  obtain ⟨z, -, hz⟩ := List.exists_of_findSome?_eq_some h
  have hr := moment_regular hm
  rcases Zone.read_spec hz with rfl | ⟨o, ho, rfl, hin⟩
  · exact hr
  · refine ⟨hr.nanos_lt, fun hl => ?_, hin⟩
    have := hr.last_second hl
    simp only
    omega

/-- Without the leap seconds, the first millisecond of a minute and one of the leap second before it
would be the same. -/
lemma Instant.Regular.canonical_eq {t u : Instant} (ht : t.Regular) (hu : u.Regular)
    (hm : t.millis = u.millis) (hl : t.IsLeap ↔ u.IsLeap) : t.canonical = u.canonical := by
  have htn := ht.nanos_lt
  have hun := hu.nanos_lt
  simp only [millis, IsLeap] at hm hl
  have hs : t.seconds = u.seconds := by omega
  have hn : t.nanos / 1000000 = u.nanos / 1000000 := by omega
  rw [← t.canonical_truncated, ← u.canonical_truncated, truncated, truncated, hs, hn]

lemma Instant.Regular.millis_bounds {t : Instant} (h : t.Regular) :
    -0x8000000000000000 ≤ t.millis ∧ t.millis ≤ 0x7FFFFFFFFFFFFFFF := by
  obtain ⟨y, i, d, hd, hn, he⟩ := Date.exists_ofDays (t.seconds / 86400)
  have hlt := Date.place_lt hd
  have hin := h.in_range
  have hnanos := h.nanos_lt
  have hl : yearLength y ≤ 366 := by
    rw [yearLength]
    split_ifs <;> omega
  rw [sum_monthLengths] at hlt
  simp only [inRange, date, he, Bool.and_eq_true, decide_eq_true_eq, firstYear, lastYear] at hin
  simp only [Date.yearStart, Date.epochStart] at hn
  simp only [millis]
  omega

end DumpImport.Time
