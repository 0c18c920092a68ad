import DumpImport.Proofs.Json.Printable
import DumpImport.Proofs.Json.Verbatim
import DumpImport.Proofs.Load.Appending
import DumpImport.Proofs.Text.Base64

namespace DumpImport.Load

open Record

section Line

/-- Both readers find a record in the text, the one that merges members of one key and the one that
leaves them as they are written. -/
structure GivesBack (r : Mapped) (t : String) (key : String) (version : Json.Integer) : Prop where
  one_line : 0x0A ∉ Bytes.ofText t
  members : Json.parse t = .ok (.object [("key", .string key), ("version", .number (.int version)),
    ("envelope", .string r.envelope)])
  verbatim : Json.parseVerbatim t = .ok (.object [("key", .string key), ("version", .number (.int version)),
    ("envelope", .string r.envelope)])
  key_eq : Text.Base64.decode key = .ok r.key
  version_eq : version.val = r.version

def storedObject (r : Mapped) : Json.Object :=
  [("key", .string (Text.Base64.encode r.key)), ("version", .number (.int (.nearest r.version))),
    ("envelope", .string r.envelope)]

lemma ofText_storedLine (r : Mapped) :
    Bytes.ofText (storedLine r) = Bytes.ofText (Json.Object.compact (storedObject r)) ++ [0x0A] := by
  rw [storedLine, Bytes.ofText, String.toList_append, Text.Utf8.encode_append]
  rfl

lemma nearest_val {i : Int} (h : -2 ^ 63 ≤ i ∧ i < 2 ^ 63) : (Json.Integer.nearest i).val = i := by
  simp only [Json.Integer.nearest]
  omega

lemma storedObject_keyed (r : Mapped) : (Json.Value.object (storedObject r)).Keyed := by
  have hkeys : Json.Object.keys (storedObject r) = ["key", "version", "envelope"] := rfl
  exact ⟨hkeys ▸ by decide, trivial, trivial, trivial, trivial⟩

lemma storedObject_whole (r : Mapped) : (Json.Value.object (storedObject r)).Whole :=
  ⟨trivial, trivial, ⟨_, rfl⟩, trivial, trivial⟩

lemma reread?_storedObject (r : Mapped) :
    (Json.Value.object (storedObject r)).reread? Json.maxDepth = some (.object (storedObject r)) := by
  have hdepth : (Json.Value.object (storedObject r)).depth = 1 := rfl
  rw [Json.Value.reread?_whole (storedObject_whole r), hdepth]
  exact if_pos (by decide)

lemma storedObject_givesBack {r : Mapped} (h : -2 ^ 63 ≤ r.version ∧ r.version < 2 ^ 63) :
    GivesBack r (Json.Object.compact (storedObject r)) (Text.Base64.encode r.key) (.nearest r.version) where
  one_line := Json.lineFeed_notMem_compact _
  members := (Json.parse_compact (storedObject_keyed r)).mpr (reread?_storedObject r)
  verbatim := Json.parseVerbatim_compact (reread?_storedObject r)
  key_eq := Text.Base64.decode_encode r.key
  version_eq := nearest_val h

lemma splitOn_lines {ls : List Bytes} (h : ∀ l ∈ ls, 0x0A ∉ l) :
    (ls.flatMap (· ++ [0x0A])).splitOn 0x0A = ls ++ [[]] := by
  induction ls with
  | nil => exact List.splitOn_eq_singleton List.not_mem_nil
  | cons l ls ih =>
    obtain ⟨hl, hls⟩ := List.forall_mem_cons.mp h
    rw [List.flatMap_cons, List.append_assoc, List.singleton_append,
      List.splitOn_append_cons_self_of_not_mem hl, ih hls, List.cons_append]

end Line

section Sequential

def growing : Files.Output (StateM Bytes) where
  append t := fun bs => (.ok (), bs ++ Bytes.ofText t)
  flush := pure (.ok ())

def sequential (rs : List Mapped) : Bytes := (rs.mapM (Sink.lines growing fun _ => pure ()).write []).2

lemma mapM_write (rs : List Mapped) (bs : Bytes) :
    (rs.mapM (Sink.lines growing fun _ => pure ()).write bs).2 =
      bs ++ rs.flatMap fun r => Bytes.ofText (storedLine r) := by
  induction rs generalizing bs with
  | nil => exact (List.append_nil bs).symm
  | cons r rs ih =>
    rw [List.mapM_cons, bind_apply, bind_apply, pure_apply, ih, List.flatMap_cons, ← List.append_assoc]
    rfl

lemma sequential_eq (rs : List Mapped) : sequential rs = rs.flatMap fun r => Bytes.ofText (storedLine r) :=
  mapM_write rs []

end Sequential

namespace Appending

/-- However the writers are interleaved, all can still get their lock and end, and the file they
leave is the one that some order of their records, written one after the other, would leave. -/
theorem lines_read_back {queues : List (List Mapped)}
    (hv : ∀ q ∈ queues, ∀ r ∈ q, -2 ^ 63 ≤ r.version ∧ r.version < 2 ^ 63) {as : List Move} {s : State}
    (h : (State.start queues).follow as = some s) :
    (∃ bs done, s.follow bs = some done ∧ IsDone done) ∧
    (IsDone s → ∃ s', s.move .flush = some s' ∧
      ∃ (log : List (Nat × Mapped)) (texts : List String),
        (∀ e ∈ log, e.1 < queues.length) ∧ (∀ i q, queues[i]? = some q → writtenBy i log = q) ∧
        s'.file = sequential (log.map Prod.snd) ∧
        s'.file = (texts.map Bytes.ofText).flatMap (· ++ [0x0A]) ∧
        s'.file.splitOn 0x0A = texts.map Bytes.ofText ++ [[]] ∧
        List.Forall₂ (fun t e => ∃ key version, GivesBack e.2 t key version) texts log) := by
  refine ⟨can_finish s, ?_⟩
  intro hd
  obtain ⟨log, hs⟩ := (Sound.start queues).follow h
  obtain ⟨s', hm, hfile⟩ := hs.flush hd
  obtain ⟨texts, htexts⟩ : ∃ texts, texts = log.map fun e =>
      Json.Object.compact (storedObject e.2) := ⟨_, rfl⟩
  have hback : List.Forall₂ (fun t e => ∃ key version, GivesBack e.2 t key version) texts log := by
    rw [htexts, List.forall₂_map_left_iff, List.forall₂_same]
    intro e he
    obtain ⟨q, hq, hr⟩ := hs.mem_queue hd he
    exact ⟨_, _, storedObject_givesBack (hv q hq e.2 hr)⟩
  have hlines : s'.file = (texts.map Bytes.ofText).flatMap (· ++ [0x0A]) := by
    rw [hfile, htexts, List.flatMap_map, List.flatMap_map]
    simp only [ofText_storedLine]
  have hone : ∀ l ∈ texts.map Bytes.ofText, 0x0A ∉ l := by
    intro l hl
    obtain ⟨t, ht, rfl⟩ := List.mem_map.mp hl
    rw [htexts] at ht
    obtain ⟨e, -, rfl⟩ := List.mem_map.mp ht
    exact Json.lineFeed_notMem_compact _
  refine ⟨s', hm, log, texts, hs.labels, fun i q hq => hs.writtenBy_eq hd hq, ?_, hlines, ?_, hback⟩
  · rw [hfile, sequential_eq, List.flatMap_map]
  · rw [hlines, splitOn_lines hone]

def quotedRecord : Mapped := ⟨[0x00, 0xFF], "line\nbreak \"quoted\" \\ \u0001 é", -2 ^ 63, .keep⟩

def emptyRecord : Mapped := ⟨[], "", 2 ^ 63 - 1, .keep⟩

def overtaking : List Move :=
  [.prepare 0, .prepare 1, .take 1, .hand 3, .spill 2, .hand 100, .release,
    .prepare 1, .take 0, .hand 100, .release, .take 1, .hand 100, .release]

theorem lines_read_back_overtaking :
    ∃ s, (State.start [[quotedRecord], [emptyRecord, quotedRecord]]).follow overtaking = some s ∧ IsDone s ∧
      ∃ s' log texts, s.move .flush = some s' ∧ writtenBy 0 log = [quotedRecord] ∧
        writtenBy 1 log = [emptyRecord, quotedRecord] ∧
        s'.file = (texts.map Bytes.ofText).flatMap (· ++ [0x0A]) ∧
        List.Forall₂ (fun t e => ∃ key version, GivesBack e.2 t key version) texts log := by
  have hv : ∀ q ∈ [[quotedRecord], [emptyRecord, quotedRecord]], ∀ r ∈ q,
      -2 ^ 63 ≤ r.version ∧ r.version < 2 ^ 63 := by decide
  obtain ⟨s, hs, hd⟩ : ∃ s,
      (State.start [[quotedRecord], [emptyRecord, quotedRecord]]).follow overtaking = some s ∧
      IsDone s := ⟨_, rfl, rfl, by simp [State.start]⟩
  obtain ⟨s', hm, log, texts, -, hlog, -, hfile, -, htexts⟩ := (lines_read_back hv hs).2 hd
  exact ⟨s, hs, hd, s', log, texts, hm, hlog 0 _ rfl, hlog 1 _ rfl, hfile, htexts⟩

end Appending

end DumpImport.Load
