import DumpImport.Proofs.Time.Printed
import DumpImport.Record.Date

namespace DumpImport.Record

lemma parseDate_eq_ok {s : String} {t : Time.Instant} : parseDate s = .ok t ↔ Time.read s = some t := by
  rw [parseDate]
  split <;> simp_all

theorem canonicalDate_faithful {x : String} {t : Time.Instant} (h : parseDate x = .ok t) :
    ∃ y, canonicalDate x = .ok y ∧ parseDate y = .ok t.truncated ∧ (t.truncated.IsLeap ↔ t.IsLeap) ∧
      canonicalDate y = .ok y ∧ millisOf x = .ok t.millis ∧ millisOf y = .ok t.millis := by
  have hy : parseDate t.canonical = .ok t.truncated :=
    parseDate_eq_ok.mpr (Time.Instant.read_canonical (Time.readAs_regular (parseDate_eq_ok.mp h)))
  refine ⟨t.canonical, ?_, hy, t.isLeap_truncated, ?_, ?_, ?_⟩
  · rw [canonicalDate, h]
    rfl
  · rw [canonicalDate, hy, Except.map, t.canonical_truncated]
  · rw [millisOf, h]
    rfl
  · rw [millisOf, hy, Except.map, t.millis_truncated]

theorem canonicalDate_faithful_leap :
    parseDate "-0001-12-31T23:30:60.1239-00:45" = .ok ⟨-62167218241, 1123900000⟩ ∧
      canonicalDate "-0001-12-31T23:30:60.1239-00:45" = .ok "0000-01-01T00:15:60.123+0000" ∧
      parseDate "0000-01-01T00:15:60.123+0000" = .ok ⟨-62167218241, 1123000000⟩ := by
  have h : parseDate "-0001-12-31T23:30:60.1239-00:45" = .ok ⟨-62167218241, 1123900000⟩ := by decide +kernel
  obtain ⟨y, hx, hy, -⟩ := canonicalDate_faithful h
  have hc : canonicalDate "-0001-12-31T23:30:60.1239-00:45" = .ok "0000-01-01T00:15:60.123+0000" := by
    decide +kernel
  obtain rfl : "0000-01-01T00:15:60.123+0000" = y := Except.ok.inj (hc.symm.trans hx)
  exact ⟨h, hc, hy⟩

end DumpImport.Record
