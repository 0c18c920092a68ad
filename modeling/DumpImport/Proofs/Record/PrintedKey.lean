import DumpImport.Proofs.Json.Parsed
import DumpImport.Proofs.Record.KeyEquality
import DumpImport.Proofs.Text.Hex

namespace DumpImport.Record.Key

open Json Text

section Escapes

def hexEscape (b : UInt8) : List Char :=
  ['\\', 'x', Hex.digits.getD (b.toNat / 16) ' ', Hex.digits.getD (b.toNat % 16) ' ']

def readEscapes : ℕ → Bytes → Option (Bytes × Bytes)
  | 0, r => some ([], r)
  | n + 1, b :: x :: high :: low :: r =>
    if b = 0x5C ∧ x = 0x78 then do
      let high ← Hex.value? high
      let low ← Hex.value? low
      let (bs, r) ← readEscapes n r
      some (.ofNat (high * 16 + low) :: bs, r)
    else none
  | _ + 1, _ => none

def ofPrinted? (s : String) : Option Bytes := (readEscapes 4 (Bytes.ofText s)).map fun (bs, r) => bs ++ r

lemma escapeByte_eq (b : UInt8) : escapeByte b = hexEscape b := by
  have hb := b.toNat_lt
  rw [escapeByte, Hex.upper, Hex.upperDigit_eq _ (by omega), Hex.upperDigit_eq _ (by omega), hexEscape]

lemma encode_escapeByte (b : UInt8) (cs : List Char) : Utf8.encode (escapeByte b ++ cs) =
    0x5C :: 0x78 :: byteOf (Hex.upperDigit (b.toNat / 16)) :: byteOf (Hex.upperDigit (b.toNat % 16)) ::
      Utf8.encode cs := by
  have hb := b.toNat_lt
  have hhigh := Hex.upperDigit_ascii (b.toNat / 16) (by omega)
  have hlow := Hex.upperDigit_ascii (b.toNat % 16) (by omega)
  rw [Utf8.encode_append, escapeByte, Hex.upper, Utf8.encode_cons_ascii (by decide),
    Utf8.encode_cons_ascii (by decide), Utf8.encode_cons_ascii hhigh, Utf8.encode_cons_ascii hlow]
  rfl

lemma readEscapes_escaped (bs : Bytes) (cs : List Char) :
    readEscapes bs.length (Utf8.encode (bs.flatMap escapeByte ++ cs)) = some (bs, Utf8.encode cs) := by
  induction bs with
  | nil => rfl
  | cons b bs ih =>
    have hb := b.toNat_lt
    rw [List.flatMap_cons, List.append_assoc, encode_escapeByte, List.length_cons,
      readEscapes, if_pos ⟨rfl, rfl⟩, Hex.value?_upperDigit _ (by omega),
      Hex.value?_upperDigit _ (by omega), ih]
    change some (UInt8.ofNat (b.toNat / 16 * 16 + b.toNat % 16) :: bs, Utf8.encode cs) = _
    rw [Hex.ofNat_nibbles]

end Escapes

section Printing

lemma printable_of_lt {key : Bytes} (h : 4 < key.length) :
    printable key = String.ofList ((key.take 4).flatMap escapeByte ++ Utf8.lossy (key.drop 4)) := by
  rw [printable, if_neg (Nat.not_le.mpr h)]

lemma readEscapes_printable {key : Bytes} (h : 4 < key.length) :
    readEscapes 4 (Bytes.ofText (printable key)) =
      some (key.take 4, Utf8.encode (Utf8.lossy (key.drop 4))) := by
  have hlen : (key.take 4).length = 4 := List.length_take_of_le (Nat.le_of_lt h)
  have hread := readEscapes_escaped (key.take 4) (Utf8.lossy (key.drop 4))
  rwa [hlen, ← String.toList_ofList (l := _ ++ _), ← printable_of_lt h] at hread

lemma take_eq_of_printable {key key' : Bytes} (h : 4 < key.length) (h' : 4 < key'.length)
    (hp : printable key = printable key') : key.take 4 = key'.take 4 := by
  have hread := readEscapes_printable h
  rw [hp, readEscapes_printable h', Option.some_inj, Prod.mk.injEq] at hread
  exact hread.1.symm

variable (o : Object)

lemma ofId_eq : ofId o = bigEndian (Gzip.crc32 (Bytes.ofText (Object.compact (sortKeys o)))) ++
    Bytes.ofText (Object.compact (sortKeys o)) := by
  rw [ofId, Bytes.ofText, Object.compact, Value.compact, String.toList_ofList]

lemma lt_length_ofId : 4 < (ofId o).length := by
  have hopen : Bytes.ofText (Object.compact (sortKeys o)) ≠ [] := by
    rw [Bytes.ofText, Object.compact, Value.compact, String.toList_ofList, Value.render, List.cons_append,
      Utf8.encode_cons_ascii (by decide)]
    exact List.cons_ne_nil _ _
  have hpos := List.length_pos_iff.mpr hopen
  rw [ofId_eq, List.length_append]
  exact Nat.lt_add_of_pos_right hpos

lemma take_ofId : (ofId o).take 4 = bigEndian (Gzip.crc32 (Bytes.ofText (Object.compact (sortKeys o)))) := by
  rw [ofId_eq]
  exact List.take_left' rfl

lemma drop_ofId : (ofId o).drop 4 = Bytes.ofText (Object.compact (sortKeys o)) := by
  rw [ofId_eq]
  exact List.drop_left' rfl

lemma lossy_drop_ofId : Utf8.lossy ((ofId o).drop 4) = (Object.compact (sortKeys o)).toList := by
  rw [drop_ofId, Bytes.ofText, Utf8.lossy_encode]

lemma printable_ofId : (printable (ofId o)).toList =
    ((ofId o).take 4).flatMap hexEscape ++ (Object.compact (sortKeys o)).toList := by
  rw [printable_of_lt (lt_length_ofId o), lossy_drop_ofId, String.toList_ofList, funext escapeByte_eq]

lemma ofPrinted?_printable : ofPrinted? (printable (ofId o)) = some (ofId o) := by
  rw [ofPrinted?, readEscapes_printable (lt_length_ofId o), lossy_drop_ofId, ← Bytes.ofText, ← drop_ofId]
  exact congrArg some (List.take_append_drop 4 (ofId o))

end Printing

section Records

variable {envelope : String} {key : Bytes}

lemma at?_message {eo mo : Object} {a : Value} (hm : eo.get? "message" = some (.object mo))
    (ha : mo.get? Field.id = some a) : (Value.object eo).at? ["message", Field.id] = some a := by
  simp [Value.at?, hm, ha]

lemma exists_usable {v : Value} {o : Object} (h : identifier? v = some o) :
    ∃ a, v.at? ["message", Field.id] = some a ∧ Usable a o := by
  unfold identifier? at h
  split at h
  · split at h
    · rename_i hm
      split at h
      · rename_i ha
        cases h
        exact ⟨_, at?_message hm ha, .object o⟩
      · rename_i s ha
        cases h
        exact ⟨_, at?_message hm ha, .string s⟩
      · rename_i n ha
        cases h
        exact ⟨_, at?_message hm ha, .number n⟩
      · cases h
    · cases h
  · cases h

lemma exists_id (h : ofText envelope = .ok key) (hk : key ≠ []) : ∃ v a o, parse envelope = .ok v ∧
    v.at? ["message", Field.id] = some a ∧ Usable a o ∧ key = ofId o := by
  rw [ofText] at h
  rcases hv : parse envelope with e | v <;> rw [hv] at h
  · cases h
  cases h
  cases hi : identifier? v with
  | none =>
    rw [ofEnvelope, hi] at hk
    exact absurd rfl hk
  | some o =>
    obtain ⟨a, ha, hu⟩ := exists_usable hi
    exact ⟨v, a, o, rfl, ha, hu, by rw [ofEnvelope, hi]⟩

end Records

/-- What is shown of a key is its checksum by digits and then the text of its id, and the key is
read from it again, so no two keys that are not empty look alike. Of any bytes beyond four, what is
shown tells the first four. -/
theorem printed_key_identifies :
    (∀ (envelope : String) (key : Bytes), ofText envelope = .ok key → key ≠ [] →
      ∃ (v a : Value) (o ms : Object), parse envelope = .ok v ∧
        v.at? ["message", Field.id] = some a ∧ Usable a o ∧
        ms.Perm o ∧ (ms.Pairwise fun a b => Bytes.ofText a.1 < Bytes.ofText b.1) ∧
        key = bigEndian (Gzip.crc32 (Bytes.ofText (Object.compact ms))) ++ Bytes.ofText (Object.compact ms) ∧
        ((key.take 4).flatMap hexEscape).length = 16 ∧
        (printable key).toList = (key.take 4).flatMap hexEscape ++ (Object.compact ms).toList ∧
        ofPrinted? (printable key) = some key) ∧
    (∀ (envelope envelope' : String) (key key' : Bytes), ofText envelope = .ok key →
      ofText envelope' = .ok key' → key ≠ [] → key' ≠ [] → key ≠ key' → printable key ≠ printable key') ∧
    ∀ key key' : Bytes, 4 < key.length → 4 < key'.length → printable key = printable key' →
      key.take 4 = key'.take 4 := by
  refine ⟨fun envelope key h hk => ?_, fun envelope envelope' key key' h h' hk hk' hne hp => ?_,
    fun key key' => take_eq_of_printable⟩
  · obtain ⟨v, a, o, hv, ha, hu, rfl⟩ := exists_id h hk
    have hkeyed := hu.keyed (keyed_of_at? (parse_keyed hv) ha)
    have hlen : (((ofId o).take 4).flatMap hexEscape).length = 16 := by
      rw [take_ofId]
      rfl
    exact ⟨v, a, o, sortKeys o, hv, ha, hu, sortKeys_perm o, sortKeys_sorted hkeyed.1, ofId_eq o, hlen,
      printable_ofId o, ofPrinted?_printable o⟩
  · obtain ⟨-, -, o, -, -, -, rfl⟩ := exists_id h hk
    obtain ⟨-, -, o', -, -, -, rfl⟩ := exists_id h' hk'
    have hread := ofPrinted?_printable o
    rw [hp, ofPrinted?_printable o', Option.some_inj] at hread
    exact hne hread.symm

def namedEnvelope (name : String) : Value := .object [("message", .object [(Field.id, .string name)])]

def namedId (name : String) : Object := [("id", .string name)]

lemma namedId_keyed (name : String) : (Value.object (namedId name)).Keyed :=
  ⟨List.nodup_singleton _, trivial, trivial⟩

lemma namedId_whole (name : String) : (Value.object (namedId name)).Whole := ⟨trivial, trivial, trivial⟩

lemma ofText_named (name : String) : ofText (namedEnvelope name).compact = .ok (ofId (namedId name)) := by
  have hkeyed : (namedEnvelope name).Keyed :=
    ⟨List.nodup_singleton _, ⟨List.nodup_singleton _, trivial, trivial⟩, trivial⟩
  have hread : (namedEnvelope name).reread? maxDepth = some (namedEnvelope name) := rfl
  rw [ofText, (parse_compact hkeyed).mpr hread]
  rfl

theorem printed_key_identifies_accented :
    ∃ key key', ofText (namedEnvelope "é").compact = .ok key ∧ ofText (namedEnvelope "e").compact = .ok key' ∧
      ofPrinted? (printable key) = some key ∧ printable key ≠ printable key' ∧
      printable [1, 2, 3, 4, 0xFE] = printable [1, 2, 3, 4, 0xFF] ∧
      ([1, 2, 3, 4, 0xFE] : Bytes).take 4 = ([1, 2, 3, 4, 0xFF] : Bytes).take 4 := by
  obtain ⟨hread, hne, htake⟩ := printed_key_identifies
  have hdiff : ofId (namedId "é") ≠ ofId (namedId "e") := by
    rw [Ne, ofId_eq_iff (namedId_keyed _) (namedId_keyed _) (namedId_whole _) (namedId_whole _)]
    simp [namedId]
  have halike : printable [1, 2, 3, 4, 0xFE] = printable [1, 2, 3, 4, 0xFF] := by decide +kernel
  obtain ⟨-, -, -, -, -, -, -, -, -, -, -, -, hprinted⟩ := hread _ _ (ofText_named "é") (ofId_ne_nil _)
  exact ⟨_, _, ofText_named "é", ofText_named "e", hprinted,
    hne _ _ _ _ (ofText_named "é") (ofText_named "e") (ofId_ne_nil _) (ofId_ne_nil _) hdiff, halike,
    htake _ _ (by decide) (by decide) halike⟩

end DumpImport.Record.Key
