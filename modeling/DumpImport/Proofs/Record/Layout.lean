import DumpImport.Proofs.Json.Verbatim
import DumpImport.Proofs.Record.StorageKey

namespace DumpImport.Record

open Json

lemma DateSource.name_injective {a b : DateSource} (h : a.name = b.name) : a = b := by
  cases a <;> cases b <;> first | rfl | exact absurd h (by decide)

namespace Envelope

def typeText : Option Value → String
  | some (.string t) => t
  | some (.number n) => n.text
  | some (.bool true) => "true"
  | some (.bool false) => "false"
  | _ => "MONGO_IMPORT"

lemma typeOf_eq (o : Document) : typeOf o = typeText (Object.get? o "@type") := by
  rw [typeOf, show Field.type = "@type" from rfl]
  match Object.get? o "@type" with
  | none | some .null | some (.array _) | some (.object _) => rfl
  | some (.bool true) | some (.bool false) | some (.number _) | some (.string _) => rfl

lemma isModified_eq (f : IdForm) : f.isModified = decide (f = .flattenedOid ∨ f = .flattenedDates) := by
  cases f <;> rfl

lemma altered_eq (a : DateSource) : (a != .lastModified) = decide (a ≠ .lastModified) := by
  cases a <;> rfl

lemma reread?_value {v : Value} (hw : v.Whole) (hd : v.depth ≤ 125) (s : Stamp) (c : Content) :
    (value s c v).reread? maxDepth = some (value s c v) := by
  rw [maxDepth, value_reread? s c v 124, Value.reread?_whole hw, if_pos hd, Option.map_some]

/-- Whatever the texts are, both readers find the same members, the one that merges members of one
key and the one that leaves them as they are written. -/
theorem build_faithful {s : Stamp} {c : Content} {v : Value} (hv : c.id.value = .ok v) (hw : v.Whole)
    (hd : v.depth ≤ 125) :
    ∃ (t : String) (o m e : Object), build s c = .ok t ∧ parseVerbatim t = .ok (.object o) ∧
      parse t = .ok (.object o) ∧
      o = [("unitOfWorkId", .string s.unitOfWork), ("timestamp", .string s.time),
        ("traceId", .string s.trace), ("@type", .string "HDI"), ("version", .string "0.1.0"),
        ("message", .object m)] ∧
      m = [("@type", .string (typeText (Object.get? c.document "@type"))), ("_id", v),
        ("mongo_format_stripped_from_id",
          .bool (decide (c.id.form = .flattenedOid ∨ c.id.form = .flattenedDates))),
        ("last_modified_date_time_was_altered", .bool (decide (c.lastModified.source ≠ .lastModified))),
        ("created_date_time_was_altered", .bool c.changes.created),
        ("removed_date_time_was_altered", .bool c.changes.removed),
        ("archived_date_time_was_altered", .bool c.changes.archived),
        ("historic_removed_record_altered_on_import", .bool c.changes.removedRecord),
        ("historic_archived_record_altered_on_import", .bool c.changes.archivedRecord),
        ("_lastModifiedDateTime", .string c.lastModified.text),
        ("timestamp_created_from", .string c.lastModified.source.name), ("collection", .string c.collection),
        ("db", .string c.database), ("dbObject", .string c.body.body), ("encryption", .object e)] ∧
      e = [("keyEncryptionKeyId", .string c.dataKey.id), ("initialisationVector", .string c.body.iv),
        ("encryptedEncryptionKey", .string c.dataKey.ciphertext)] ∧
      ∀ a : DateSource, a.name = c.lastModified.source.name → a = c.lastModified.source := by
  have hverbatim := parseVerbatim_compact (reread?_value hw hd s c)
  have hparse : parse (value s c v).compact = .ok (value s c v) := by
    rw [parse_eq_merged, hverbatim, Except.map, (value_keyed s c (Id.value_keyed hv)).merged]
  refine ⟨(value s c v).compact, _, _, _, by rw [build, hv]; rfl, hverbatim, hparse, rfl, ?_, rfl,
    fun a ha => DateSource.name_injective ha⟩
  rw [← typeOf_eq, ← isModified_eq, ← altered_eq]
  rfl

theorem build_faithful_quoted :
    sampleId.value = .ok (.object sampleMembers) ∧ (Value.object sampleMembers).Whole ∧
      (Value.object sampleMembers).depth ≤ 125 ∧
      ∃ (t : String) (o m : Object),
        build ⟨"\\", "\x00", "\"\n"⟩ (sampleContent "\",\"_id\":0,\"db\":\"") = .ok t ∧
        parseVerbatim t = .ok (.object o) ∧ Object.get? o "traceId" = some (.string "\x00") ∧
        Object.get? o "message" = some (.object m) ∧ Object.get? m "_id" = some (.object sampleMembers) ∧
        Object.get? m "db" = some (.string "\",\"_id\":0,\"db\":\"") := by
  have hw : (Value.object sampleMembers).Whole := ⟨trivial, ⟨_, rfl⟩, trivial, trivial⟩
  have hd : (Value.object sampleMembers).depth ≤ 125 := by decide
  obtain ⟨t, o, m, e, ht, ho, -, rfl, rfl, -⟩ := build_faithful (s := ⟨"\\", "\x00", "\"\n"⟩)
    (c := sampleContent "\",\"_id\":0,\"db\":\"") value_sampleId hw hd
  exact ⟨value_sampleId, hw, hd, t, _, _, ht, ho, rfl, rfl, rfl, rfl⟩

end Envelope

end DumpImport.Record
