import DumpImport.Proofs.Record.CanonicalDate
import DumpImport.Proofs.Time.Unix

namespace DumpImport.Record

open Time

variable {x y : Spelling}

lemma parseDate_text (hv : x.date.Valid) : parseDate x.text = .ok x.instant :=
  parseDate_eq_ok.mpr (Spelling.read_text hv)

lemma canonicalDate_text (hv : x.date.Valid) : canonicalDate x.text = .ok x.instant.canonical := by
  rw [canonicalDate, parseDate_text hv]
  rfl

lemma canonical_eq_iff (hx : x.date.Valid) (hy : y.date.Valid) :
    x.instant.canonical = y.instant.canonical ↔ x.unixMillis = y.unixMillis := by
  have hrx := Spelling.regular hx
  have hry := Spelling.regular hy
  rw [← x.millis_instant, ← y.millis_instant]
  constructor
  · intro h
    have ht : some x.instant.truncated = some y.instant.truncated := by
      rw [← Instant.read_canonical hrx, ← Instant.read_canonical hry, h]
    rw [← x.instant.millis_truncated, ← y.instant.millis_truncated, Option.some.inj ht]
  · intro h
    exact hrx.canonical_eq hry h (iff_of_false x.not_isLeap y.not_isLeap)

/-- A day that exists is read as a number of days since 1970, from which the offset is taken off;
two such dates have one canonical form exactly if they name the same millisecond. A day that does
not exist is no date. -/
theorem date_names_unix_time (x : Spelling) :
    (x.date.Valid →
      parseDate x.text = .ok x.instant ∧ millisOf x.text = .ok x.unixMillis ∧
        canonicalDate x.text = .ok x.instant.canonical ∧
        ∀ y : Spelling, y.date.Valid →
          (canonicalDate x.text = canonicalDate y.text ↔ x.unixMillis = y.unixMillis)) ∧
    (¬ x.date.Valid → parseDate x.text = .error (.unparseableDate x.text)) := by
  refine ⟨fun hx => ⟨parseDate_text hx, ?_, canonicalDate_text hx, fun y hy => ?_⟩, fun hx => ?_⟩
  · rw [millisOf, parseDate_text hx, Except.map, x.millis_instant]
  · rw [canonicalDate_text hx, canonicalDate_text hy, Except.ok.injEq, canonical_eq_iff hx hy]
  · rw [parseDate, Spelling.read_text_of_not_valid hx]

def marchFirst : Spelling where
  year := 2000
  month := 3
  day := 1
  hour := 0
  minute := 30
  second := 0
  fraction := some ⟨4, 19, by decide, by decide, by decide⟩
  zone := .offset '+' true 1 0 (by decide) (by decide) (by decide)
  year_le := by decide
  month_le := by decide
  day_le := by decide
  hour_le := by decide
  minute_le := by decide
  second_le := by decide

def leapDay (year : Nat) (h : year ≤ 9999) : Spelling where
  year := year
  month := 2
  day := 29
  hour := 23
  minute := 30
  second := 0
  fraction := some ⟨3, 1, by decide, by decide, by decide⟩
  zone := .utc
  year_le := h
  month_le := by decide
  day_le := by decide
  hour_le := by decide
  minute_le := by decide
  second_le := by decide

theorem date_names_unix_time_leapDay :
    marchFirst.text = "2000-03-01T00:30:00.0019+01:00" ∧ marchFirst.date.Valid ∧
      millisOf marchFirst.text = .ok 951867000001 ∧
      canonicalDate marchFirst.text = canonicalDate (leapDay 2000 (by decide)).text ∧
      parseDate "1900-02-29T23:30:00.001Z" = .error (.unparseableDate "1900-02-29T23:30:00.001Z") := by
  have hmarch : marchFirst.date.Valid := by decide
  have hleap : (leapDay 2000 (by decide)).date.Valid := by decide
  have hnone : ¬ (leapDay 1900 (by decide)).date.Valid := by decide
  have hmillis : marchFirst.unixMillis = 951867000001 := by
    rw [Spelling.unixMillis, ← Date.toDays_eq]
    decide
  have hsame : (leapDay 2000 (by decide)).unixMillis = 951867000001 := by
    rw [Spelling.unixMillis, ← Date.toDays_eq]
    decide
  obtain ⟨-, hm, -, hc⟩ := (date_names_unix_time marchFirst).1 hmarch
  have hn := (date_names_unix_time (leapDay 1900 (by decide))).2 hnone
  have htext : (leapDay 1900 (by decide)).text = "1900-02-29T23:30:00.001Z" := by decide +kernel
  rw [htext] at hn
  exact ⟨by decide +kernel, hmarch, hmillis ▸ hm, (hc _ hleap).mpr (hmillis.trans hsame.symm), hn⟩

end DumpImport.Record
