import DumpImport.Proofs.Time.Zones

namespace DumpImport.Time

open Text

namespace Date

def daysFrom (year : Int) : Nat → Nat
  | 0 => 0
  | n + 1 => daysFrom year n + yearLength (year + n)

def daysSince1970 (d : Date) : Int :=
  daysFrom 1970 (d.year - 1970).toNat - daysFrom d.year (1970 - d.year).toNat +
    ((monthLengths (isLeap d.year)).take (d.month - 1)).sum + (d.day - 1)

lemma daysFrom_eq (year : Int) (n : Nat) :
    (daysFrom year n : Int) = yearStart (year + n) - yearStart year := by
  induction n with
  | zero => simp [daysFrom]
  | succ n ih =>
    rw [daysFrom, Int.natCast_add, ih, Int.natCast_add, Int.natCast_one, ← Int.add_assoc, yearStart_succ]
    omega

lemma toDays_eq (d : Date) : d.toDays = d.daysSince1970 := by
  have h₀ : yearStart 1970 = epochStart := by decide
  rw [toDays, daysSince1970, monthStart_eq, daysFrom_eq, daysFrom_eq]
  rcases Int.le_total 1970 d.year with h | h
  · rw [show 1970 + ((d.year - 1970).toNat : Int) = d.year by omega, show (1970 - d.year).toNat = 0 by omega]
    simp only [Int.ofNat_zero, Int.add_zero]
    omega
  · rw [show d.year + ((1970 - d.year).toNat : Int) = 1970 by omega, show (d.year - 1970).toNat = 0 by omega]
    simp only [Int.ofNat_zero, Int.add_zero]
    omega

end Date

section Spelling

structure Fraction where
  width : Nat
  value : Nat
  width_pos : 0 < width
  width_le : width ≤ 9
  value_lt : value < 10 ^ width

inductive ZoneSpelling where
  | utc
  | offset (sign : Char) (colon : Bool) (hours minutes : Nat) (sign_mem : sign ∈ ['+', '-', '\u2212'])
      (hours_le : hours ≤ 23) (minutes_le : minutes ≤ 59)

/-- A date in the order of its parts, each with all its digits; the day need not exist. -/
structure Spelling where
  year : Nat
  month : Nat
  day : Nat
  hour : Nat
  minute : Nat
  second : Nat
  fraction : Option Fraction
  zone : ZoneSpelling
  year_le : year ≤ 9999
  month_le : month ≤ 99
  day_le : day ≤ 99
  hour_le : hour ≤ 23
  minute_le : minute ≤ 59
  second_le : second ≤ 59

def Fraction.text (f : Fraction) : String := "." ++ padded f.width f.value

/-- Digits after the third count for nothing. -/
def Fraction.millis (f : Fraction) : Nat := f.value * 1000 / 10 ^ f.width

def Fraction.nanos (f : Fraction) : Nat := f.value * 10 ^ (9 - f.width)

namespace ZoneSpelling

def text : ZoneSpelling → String
  | utc => "Z"
  | offset sign colon hours minutes _ _ _ =>
    String.singleton sign ++ padded 2 hours ++ (if colon then ":" else "") ++ padded 2 minutes

/-- Seconds east. -/
def seconds : ZoneSpelling → Int
  | utc => 0
  | offset sign _ hours minutes _ _ _ =>
    if sign = '+' then 3600 * hours + 60 * minutes else -(3600 * hours + 60 * minutes)

end ZoneSpelling

namespace Spelling

def date (x : Spelling) : Date := ⟨x.year, x.month, x.day⟩

def fractionText (x : Spelling) : String := x.fraction.elim "" Fraction.text

def text (x : Spelling) : String :=
  padded 4 x.year ++ "-" ++ padded 2 x.month ++ "-" ++ padded 2 x.day ++ "T" ++ padded 2 x.hour ++ ":" ++
    padded 2 x.minute ++ ":" ++ padded 2 x.second ++ x.fractionText ++ x.zone.text

def unixMillis (x : Spelling) : Int :=
  1000 * (86400 * x.date.daysSince1970 + 3600 * x.hour + 60 * x.minute + x.second) +
    x.fraction.elim 0 Fraction.millis - 1000 * x.zone.seconds

def unzoned (x : Spelling) : Instant := x.date.at x.hour x.minute x.second (x.fraction.elim 0 Fraction.nanos)

def instant (x : Spelling) : Instant := ⟨x.unzoned.seconds - x.zone.seconds, x.unzoned.nanos⟩

end Spelling

end Spelling

section Parts

variable {n : Nat} {r : List Char}

lemma twoDigits_padded (hn : n ≤ 99) (r : List Char) :
    twoDigits ((padded 2 n).toList ++ r) = some (n, r) := by
  have hall := (isDigits_padded 2 n).2
  have hv := decimalValue_padded 2 n
  obtain ⟨c, d, hcd⟩ := List.length_eq_two.mp (length_padded (w := 2) (by decide) (by omega : n < 10 ^ 2))
  rw [hcd] at hall hv ⊢
  have hc : isDigit c = true := by rw [isDigit_eq, hall c (by simp)]
  have hd : isDigit d = true := by rw [isDigit_eq, hall d (by simp)]
  simp only [List.cons_append, List.nil_append, twoDigits, hc, hd, and_self, if_true, hv]

lemma dropWhile_separator {ds : List Char} (h : IsDigits ds) (r : List Char) :
    (ds ++ r).dropWhile isSeparator = ds ++ r := by
  cases ds with
  | nil => exact absurd rfl h.1
  | cons d ds =>
    have hd : isSeparator d = false := by
      have := isDigit_bounds h.cons
      rw [isSeparator, isBlank_of_isDigit h.cons, Bool.or_false, beq_eq_false_iff_ne]
      rintro rfl
      exact absurd h.cons (by decide)
    rw [List.cons_append, List.dropWhile_cons_of_neg (by simp [hd])]

lemma fraction_none {r : List Char} (h : ∀ s, r ≠ '.' :: s) : fraction r = some (0, r) := by
  unfold fraction
  split
  · exact absurd rfl (h _)
  · rfl

lemma Fraction.nanos_div (f : Fraction) : f.nanos / 1000000 = f.millis := by
  have hp : 10 ^ f.width * 10 ^ (9 - f.width) = 1000 * 1000000 := by
    rw [← Nat.pow_add, Nat.add_sub_cancel' f.width_le]
  have hw : 0 < 10 ^ (9 - f.width) := Nat.pow_pos (by decide)
  calc f.value * 10 ^ (9 - f.width) / 1000000
      = f.value * 10 ^ (9 - f.width) * 1000 / (1000 * 1000000) := by
        rw [Nat.mul_comm _ 1000, Nat.mul_div_mul_left _ _ (by decide)]
    _ = f.value * 1000 * 10 ^ (9 - f.width) / (10 ^ f.width * 10 ^ (9 - f.width)) := by
        rw [hp, Nat.mul_right_comm]
    _ = f.value * 1000 / 10 ^ f.width := Nat.mul_div_mul_right _ _ hw

lemma Fraction.nanos_lt (f : Fraction) : f.nanos < 1000000000 := by
  calc f.value * 10 ^ (9 - f.width)
      < 10 ^ f.width * 10 ^ (9 - f.width) := Nat.mul_lt_mul_of_pos_right f.value_lt (Nat.pow_pos (by decide))
    _ = 1000000000 := by rw [← Nat.pow_add, Nat.add_sub_cancel' f.width_le]

lemma ZoneSpelling.text_cons (z : ZoneSpelling) :
    ∃ c s, z.text.toList = c :: s ∧ c.isDigit = false ∧ c ≠ '.' := by
  cases z with
  | utc => exact ⟨'Z', [], rfl, by decide, by decide⟩
  | offset sign colon hours minutes sign_mem =>
    refine ⟨sign, _, by simp [text]; rfl, ?_⟩
    simp only [List.mem_cons, List.not_mem_nil, or_false] at sign_mem
    rcases sign_mem with rfl | rfl | rfl <;> exact ⟨by decide, by decide⟩

lemma Spelling.fraction_text (x : Spelling) : Time.fraction (x.fractionText ++ x.zone.text).toList =
    some (x.fraction.elim 0 Fraction.nanos, x.zone.text.toList) := by
  obtain ⟨c, s, hz, hc, hp⟩ := x.zone.text_cons
  rw [String.toList_append, fractionText]
  cases x.fraction with
  | none =>
    rw [Option.elim_none, String.toList_empty, List.nil_append, hz]
    exact fraction_none fun t ht => hp (List.cons.inj ht).1
  | some f =>
    have hl : (padded f.width f.value).toList.length = f.width := length_padded f.width_pos f.value_lt
    have hr := fraction_digits (isDigits_padded f.width f.value) (by rw [hl]; exact f.width_le)
      (hz ▸ stops_cons hc s)
    rw [hl, decimalValue_padded] at hr
    rw [Option.elim_some, Fraction.text, String.toList_append, show ".".toList = ['.'] from rfl,
      List.append_assoc, List.singleton_append, hr]
    rfl

lemma offset_plus (r : List Char) : Time.offset ('+' :: r) = unsignedOffset false r := rfl

lemma offset_minus (r : List Char) : Time.offset ('-' :: r) = unsignedOffset true r := rfl

lemma offset_minusSign (r : List Char) : Time.offset ('\u2212' :: r) = unsignedOffset true r := rfl

lemma unsignedOffset_padded (negative colon : Bool) {hours minutes : Nat} (hh : hours ≤ 23)
    (hm : minutes ≤ 59) :
    unsignedOffset negative
      ((padded 2 hours).toList ++ ((if colon then ":" else "").toList ++ (padded 2 minutes).toList)) =
        some (if negative then -(3600 * hours + 60 * minutes : Int) else 3600 * hours + 60 * minutes, []) := by
  have hd : ((if colon then ":" else "").toList ++ (padded 2 minutes).toList).dropWhile isSeparator =
      (padded 2 minutes).toList := by
    have hp := dropWhile_separator (isDigits_padded 2 minutes) []
    rw [List.append_nil] at hp
    cases colon with
    | false => rwa [if_neg Bool.false_ne_true, String.toList_empty, List.nil_append]
    | true => rwa [if_pos rfl, show ":".toList = [':'] from rfl, List.singleton_append,
        List.dropWhile_cons_of_pos (by decide)]
  have ht := twoDigits_padded (n := minutes) (by omega) []
  rw [List.append_nil] at ht
  simp only [unsignedOffset, Reader.andThen, twoDigits_padded (show hours ≤ 99 by omega),
    Option.bind_some, hd, ht, if_pos hm, Int.mul_comm]

lemma ZoneSpelling.offset_text {sign : Char} (colon : Bool) {hours minutes : Nat}
    (hs : sign ∈ ['+', '-', '\u2212']) (hh : hours ≤ 23) (hm : minutes ≤ 59) :
    Time.offset (offset sign colon hours minutes hs hh hm).text.toList =
      some ((offset sign colon hours minutes hs hh hm).seconds, []) := by
  have htext : (offset sign colon hours minutes hs hh hm).text.toList = sign ::
      ((padded 2 hours).toList ++ ((if colon then ":" else "").toList ++ (padded 2 minutes).toList)) := by
    simp [text]
  rw [htext]
  simp only [List.mem_cons, List.not_mem_nil, or_false] at hs
  rcases hs with rfl | rfl | rfl
  · rw [offset_plus, unsignedOffset_padded false colon hh hm]
    rfl
  · rw [offset_minus, unsignedOffset_padded true colon hh hm]
    rfl
  · rw [offset_minusSign, unsignedOffset_padded true colon hh hm]
    rfl

end Parts

section Instants

variable {x : Spelling}

lemma Spelling.text_toList (x : Spelling) : x.text.toList =
    written x.date x.hour x.minute x.second (x.fractionText ++ x.zone.text).toList := by
  have hy : yearText (x.year : Int) = padded 4 x.year := by
    rw [yearText, if_pos ⟨by omega, by have := x.year_le; omega⟩, Int.toNat_natCast]
  simp [text, written, date, hy]

lemma Spelling.moment_text (hv : x.date.Valid) :
    moment x.text.toList = some (x.unzoned, x.zone.text.toList) := by
  have hy : firstYear ≤ x.date.year ∧ x.date.year ≤ lastYear := by
    have := x.year_le
    simp only [date, firstYear, lastYear]
    omega
  rw [x.text_toList,
    moment_written hv hy x.hour_le x.minute_le (by have := x.second_le; omega) x.fraction_text]
  rfl

theorem Spelling.read_text_of_not_valid (hv : ¬ x.date.Valid) : Time.read x.text = none := by
  rw [Time.read, readAs, x.text_toList, moment_unwritten hv x.month_le x.day_le x.hour_le x.minute_le
    (by have := x.second_le; omega) x.fraction_text]
  rfl

lemma Spelling.unzoned_seconds (x : Spelling) :
    x.unzoned.seconds = 86400 * x.date.daysSince1970 + 3600 * x.hour + 60 * x.minute + x.second := by
  have := x.second_le
  rw [unzoned, Date.at, Date.toDays_eq, if_neg (by omega)]
  simp only [Clock.toSeconds]
  omega

lemma Spelling.unzoned_nanos (x : Spelling) : x.unzoned.nanos = x.fraction.elim 0 Fraction.nanos := by
  have := x.second_le
  exact if_neg (by omega)

lemma Spelling.nanos_lt (x : Spelling) : x.instant.nanos < 1000000000 := by
  rw [instant, unzoned_nanos]
  cases x.fraction with
  | none => decide
  | some f => exact f.nanos_lt

theorem Spelling.millis_instant (x : Spelling) : x.instant.millis = x.unixMillis := by
  have hf : x.unzoned.nanos / 1000000 = x.fraction.elim 0 Fraction.millis := by
    rw [unzoned_nanos]
    cases x.fraction with
    | none => rfl
    | some f => exact f.nanos_div
  simp only [Instant.millis, instant, unzoned_seconds, unixMillis]
  omega

lemma Date.toDays_bounds {d : Date} (hv : d.Valid) (h : 0 ≤ d.year ∧ d.year ≤ 9999) :
    -719528 ≤ d.toDays ∧ d.toDays < 2932897 := by
  obtain ⟨hm, hd, hp⟩ := (valid_iff d).mp hv
  have hk := place_lt hp
  rw [sum_monthLengths, ← monthStart_eq] at hk
  have hfirst := yearStart_le h.1
  have hlast := yearStart_le (show d.year + 1 ≤ 10000 by omega)
  have hlength := yearStart_succ d.year
  have h₀ : yearStart 0 = -366 := by decide
  have h₁ : yearStart 10000 = 3652059 := by decide
  simp only [toDays, epochStart]
  omega

lemma ZoneSpelling.seconds_bounds (z : ZoneSpelling) : -86400 < z.seconds ∧ z.seconds < 86400 := by
  cases z with
  | utc => exact ⟨by decide, by decide⟩
  | offset sign colon hours minutes =>
    rw [seconds]
    split_ifs <;> omega

lemma Instant.inRange_of_days {t : Instant} (h : -1000000 ≤ t.seconds / 86400 ∧ t.seconds / 86400 ≤ 3000000) :
    t.inRange = true := by
  obtain ⟨y, i, d, hd, hn, he⟩ := Date.exists_ofDays (t.seconds / 86400)
  have hk := Date.place_lt hd
  have hl : yearLength y ≤ 366 := by
    rw [yearLength]
    split_ifs <;> omega
  rw [sum_monthLengths] at hk
  simp only [Date.yearStart, Date.epochStart] at hn
  simp only [inRange, date, he, Bool.and_eq_true, decide_eq_true_eq, firstYear, lastYear]
  omega

lemma Spelling.inRange_instant (hv : x.date.Valid) : x.instant.inRange = true := by
  have hdays := Date.toDays_bounds hv ⟨Int.natCast_nonneg _, Int.ofNat_le.mpr x.year_le⟩
  have hzone := x.zone.seconds_bounds
  have hhour := x.hour_le
  have hminute := x.minute_le
  have hsecond := x.second_le
  have hs := x.unzoned_seconds
  rw [← Date.toDays_eq] at hs
  apply Instant.inRange_of_days
  simp only [instant]
  omega

lemma Spelling.zone_read (hv : x.date.Valid) {sign : Char} {colon : Bool} {hours minutes : Nat}
    {hs : sign ∈ ['+', '-', '\u2212']} {hh : hours ≤ 23} {hm : minutes ≤ 59}
    (hz : x.zone = .offset sign colon hours minutes hs hh hm) :
    Zone.offset.read x.unzoned x.zone.text.toList = some x.instant := by
  have ho := ZoneSpelling.offset_text colon hs hh hm
  have hb := x.zone.seconds_bounds
  have hr := Spelling.inRange_instant hv
  rw [Zone.read, hz, ho, ← hz]
  exact if_pos ⟨rfl, by omega, hr⟩

theorem Spelling.read_text (hv : x.date.Valid) : Time.read x.text = some x.instant := by
  rw [read_eq_some (x.moment_text hv)]
  cases hz : x.zone with
  | utc =>
    left
    refine ⟨rfl, ?_⟩
    rw [instant, hz, ZoneSpelling.seconds, Int.sub_zero]
  | offset sign colon hours minutes hs hh hm =>
    right
    have hread := Spelling.zone_read hv hz
    rw [hz] at hread
    obtain ⟨v, d, hd⟩ := offset_last (ZoneSpelling.offset_text colon hs hh hm)
    exact ⟨⟨v, d, hd⟩, hread⟩

lemma Spelling.regular (hv : x.date.Valid) : x.instant.Regular :=
  readAs_regular (Spelling.read_text hv)

lemma Spelling.not_isLeap (x : Spelling) : ¬ x.instant.IsLeap := Nat.not_le.mpr x.nanos_lt

end Instants

end DumpImport.Time
