import DumpImport.Dump.Listing
import Mathlib.Data.List.Infix
import Mathlib.Tactic.Common

/-! Where the file beside a dump file is looked for. It is beside it, under the name of the dump file
with another ending, exactly if the path has `gz.enc` nowhere but at its end and in small letters. -/

namespace DumpImport.Dump

def mark : List Char := ['g', 'z', '.', 'e', 'n', 'c']

def replacement : List Char := "encryption.json".toList

variable {cs pre ending : List Char}

lemma length_replacement : replacement.length = 15 := by
  decide

lemma getLast?_replacement : replacement.getLast? = some 'n' := by
  decide

lemma sidecar_mark (cs : List Char) : sidecar (mark ++ cs) = replacement ++ sidecar cs := rfl

lemma sidecar_cons {c : Char} (h : ¬ mark <+: c :: cs) : sidecar (c :: cs) = c :: sidecar cs := by
  conv_lhs => unfold sidecar
  split
  · rename_i r hr
    exact absurd ⟨r, hr.symm⟩ h
  · rename_i hr
    cases hr
    rfl
  · rename_i hr
    cases hr

lemma length_le_sidecar (cs : List Char) : cs.length ≤ (sidecar cs).length := by
  fun_induction sidecar cs with
  | case1 cs ih => simp; omega
  | case2 c cs _ ih => simpa using ih
  | case3 => exact Nat.le_refl _

lemma sidecar_of_absent (h : ¬ mark <:+: cs) : sidecar cs = cs := by
  induction cs with
  | nil => rfl
  | cons c cs ih =>
    rw [List.infix_cons_iff, not_or] at h
    rw [sidecar_cons h.1, ih h.2]

lemma exists_first (h : mark <:+: cs) :
    ∃ a b, cs = a ++ (mark ++ b) ∧ ¬ mark <:+: a ∧ sidecar cs = a ++ (replacement ++ sidecar b) := by
  induction cs with
  | nil => exact absurd h (by decide)
  | cons c cs ih =>
    by_cases hp : mark <+: c :: cs
    · obtain ⟨b, hb⟩ := hp
      exact ⟨[], b, hb.symm, by decide, by rw [← hb, sidecar_mark]; rfl⟩
    · obtain ⟨a, b, rfl, ha, hs⟩ := ih ((List.infix_cons_iff.mp h).resolve_left hp)
      refine ⟨c :: a, b, rfl, ?_, by rw [sidecar_cons hp, hs]; rfl⟩
      rw [List.infix_cons_iff, not_or]
      exact ⟨fun hc => hp (hc.trans ⟨mark ++ b, rfl⟩), ha⟩

lemma length_lt_sidecar (h : mark <:+: cs) : cs.length < (sidecar cs).length := by
  obtain ⟨a, b, rfl, -, hs⟩ := exists_first h
  have hb := length_le_sidecar b
  rw [hs]
  simp only [List.length_append, show mark.length = 6 from rfl, length_replacement]
  omega

lemma sidecar_eq_self : sidecar cs = cs ↔ ¬ mark <:+: cs :=
  ⟨fun h hm => Nat.ne_of_gt (length_lt_sidecar hm) (congrArg List.length h), sidecar_of_absent⟩

lemma mark_prefix_append (hne : pre ≠ []) (h : mark <+: pre ++ mark) : mark <+: pre := by
  by_cases hl : mark.length ≤ pre.length
  · exact List.prefix_of_prefix_length_le h (List.prefix_append _ _) hl
  · match pre with
    | [] => exact absurd rfl hne
    | [_] | [_, _] | [_, _, _] | [_, _, _, _] | [_, _, _, _, _] => simp [mark, List.cons_prefix_cons] at h
    | _ :: _ :: _ :: _ :: _ :: _ :: r => exact absurd (by simp [mark]) hl

lemma sidecar_append_mark (h : ¬ mark <:+: pre) : sidecar (pre ++ mark) = pre ++ replacement := by
  induction pre with
  | nil => rfl
  | cons c pre ih =>
    rw [List.infix_cons_iff, not_or] at h
    have hc : ¬ mark <+: c :: (pre ++ mark) := fun hp => h.1 (mark_prefix_append (List.cons_ne_nil c pre) hp)
    rw [List.cons_append, sidecar_cons hc, ih h.2, List.cons_append]

lemma sidecar_append_iff (h : ending.map Char.toLower = mark) :
    sidecar (pre ++ ending) = pre ++ replacement ↔ ending = mark ∧ ¬ mark <:+: pre := by
  refine ⟨fun hs => ?_, fun ⟨he, hp⟩ => he ▸ sidecar_append_mark hp⟩
  have hl : ending.length = 6 := by simpa [mark] using congrArg List.length h
  have hm : mark <:+: pre ++ ending := by
    by_contra hn
    have := congrArg List.length ((sidecar_of_absent hn).symm.trans hs)
    simp [hl, length_replacement] at this
  obtain ⟨a, b, hab, ha, hr⟩ := exists_first hm
  have hlen := congrArg List.length hab
  have hlen' := congrArg List.length (hr.symm.trans hs)
  simp only [List.length_append, hl, show mark.length = 6 from rfl, length_replacement] at hlen hlen'
  have hb : sidecar b = b := sidecar_eq_self.mpr fun hi => by
    have := length_lt_sidecar hi
    omega
  have hn : b = [] := by
    rcases List.eq_nil_or_concat b with hnil | ⟨u, x, rfl⟩
    · exact hnil
    obtain ⟨v, y, rfl⟩ := (List.eq_nil_or_concat ending).resolve_left (by rintro rfl; cases hl)
    have hend : y.toLower = 'c' := by simpa [mark] using congrArg List.getLast? h
    have hold : y = x := by simpa using congrArg List.getLast? hab
    rw [hs, hb] at hr
    have hnew : x = 'n' := by simpa [getLast?_replacement, eq_comm] using congrArg List.getLast? hr
    rw [hold, hnew] at hend
    exact absurd hend (by decide)
  subst hn
  rw [List.append_nil] at hab
  obtain ⟨rfl, rfl⟩ := List.append_inj hab (by simp only [List.length_nil] at hlen; omega)
  exact ⟨rfl, ha⟩

section Paths

variable {directory name p q : String}

lemma join_append (directory a b : String) : Files.join directory (a ++ b) = Files.join directory a ++ b := by
  simp only [Files.join]
  split_ifs <;> simp only [String.append_assoc]

lemma mem_dumpNames {es : List Files.Entry} : name ∈ dumpNames es ↔
    ⟨name, true⟩ ∈ es ∧ isDumpName name = true := by
  simp only [dumpNames, List.mem_mergeSort, List.mem_map, List.mem_filter, Bool.and_eq_true]
  refine ⟨?_, fun ⟨he, hd⟩ => ⟨_, ⟨he, rfl, hd⟩, rfl⟩⟩
  rintro ⟨⟨n, f⟩, ⟨he, rfl, hd⟩, rfl⟩
  exact ⟨he, hd⟩

lemma exists_stem (h : isDumpName name = true) :
    ∃ stem ending : String, name = stem ++ ending ∧ ending.toList.map Char.toLower = mark := by
  obtain ⟨t, ht⟩ := List.isSuffixOf_iff_suffix.mp h
  rw [show Collection.ending = ".json.".toList ++ mark by decide, ← List.append_assoc] at ht
  obtain ⟨a, b, hab, -, hb⟩ := List.map_eq_append_iff.mp ht.symm
  refine ⟨String.ofList a, String.ofList b, ?_, by rw [String.toList_ofList, hb]⟩
  rw [← String.ofList_append, ← hab, String.ofList_toList]

def MarkedOnce (path : String) : Prop := ∃ pre, path.toList = pre ++ mark ∧ ¬ mark <:+: pre

lemma sidecarPath_markedOnce (h : MarkedOnce p) :
    ∃ pre, p.toList = pre ++ mark ∧ (sidecarPath p).toList = pre ++ replacement := by
  obtain ⟨pre, hp, hn⟩ := h
  exact ⟨pre, hp, by rw [sidecarPath, String.toList_ofList, hp, sidecar_append_mark hn]⟩

lemma sidecarPath_eq_self : sidecarPath p = p ↔ ¬ mark <:+: p.toList := by
  rw [← sidecar_eq_self, sidecarPath, ← String.toList_inj, String.toList_ofList]

end Paths

/-- The file beside a listed file has its name but for the ending, in the same directory, exactly if
the path is marked at its end only. A path without a mark leads to the dump file itself, and paths
marked at their ends only never lead to one file. -/
theorem sidecar_beside_iff (es : List Files.Entry) (directory name : String) (h : name ∈ dumpNames es) :
    (∃ stem ending : String, name = stem ++ ending ∧ ending.toList.map Char.toLower = mark ∧
      (sidecarPath (Files.join directory name) = Files.join directory (stem ++ "encryption.json") ↔
        MarkedOnce (Files.join directory name))) ∧
    (sidecarPath (Files.join directory name) = Files.join directory name ↔
      ¬ mark <:+: (Files.join directory name).toList) ∧
    ∀ path, MarkedOnce (Files.join directory name) → MarkedOnce path →
      sidecarPath (Files.join directory name) = sidecarPath path → Files.join directory name = path := by
  refine ⟨?_, sidecarPath_eq_self, fun path hp hq he => ?_⟩
  · obtain ⟨stem, ending, rfl, hend⟩ := exists_stem (mem_dumpNames.mp h).2
    refine ⟨stem, ending, rfl, hend, ?_⟩
    have hrep : "encryption.json".toList = replacement := rfl
    rw [join_append, join_append, ← String.toList_inj, sidecarPath, String.toList_ofList,
      String.toList_append, String.toList_append, hrep, sidecar_append_iff hend, MarkedOnce,
      String.toList_append]
    refine ⟨fun ⟨he, hn⟩ => ⟨_, by rw [he], hn⟩, fun ⟨pre, hpre, hn⟩ => ?_⟩
    have hl : ending.toList.length = mark.length := by rw [← hend, List.length_map]
    obtain ⟨rfl, he⟩ := List.append_inj' hpre hl
    exact ⟨he, hn⟩
  · obtain ⟨a, ha, hsa⟩ := sidecarPath_markedOnce hp
    obtain ⟨b, hb, hsb⟩ := sidecarPath_markedOnce hq
    rw [he, hsb] at hsa
    rw [← String.toList_inj, ha, hb, List.append_cancel_right hsa]

theorem sidecar_beside_iff_data : ∃ (es : List Files.Entry) (directory name stem ending : String),
    name ∈ dumpNames es ∧ MarkedOnce (Files.join directory name) ∧ name = stem ++ ending ∧
    ending.toList.map Char.toLower = mark ∧
    sidecarPath (Files.join directory name) = Files.join directory (stem ++ "encryption.json") ∧
    sidecarPath (Files.join directory name) ≠ Files.join directory name := by
  have hlisted : "db.coll.01.json.gz.enc" ∈ dumpNames [⟨"db.coll.01.json.gz.enc", true⟩] :=
    mem_dumpNames.mpr ⟨List.mem_singleton_self _, by decide +kernel⟩
  have honce : MarkedOnce (Files.join "/data" "db.coll.01.json.gz.enc") :=
    ⟨"/data/db.coll.01.json.".toList, by decide +kernel, by decide⟩
  obtain ⟨⟨stem, ending, hname, hend, hbeside⟩, hself, -⟩ := sidecar_beside_iff _ "/data" _ hlisted
  refine ⟨_, "/data", _, stem, ending, hlisted, honce, hname, hend, hbeside.mpr honce,
    fun he => hself.mp he ?_⟩
  obtain ⟨pre, hpre, -⟩ := honce
  exact hpre ▸ (List.suffix_append pre mark).isInfix

/-- An ending in capital letters is not replaced, a directory by such a name is, and two listed files
may be led to one. -/
theorem sidecar_astray :
    ("db.coll.01.JSON.GZ.ENC" ∈ dumpNames [⟨"db.coll.01.JSON.GZ.ENC", true⟩] ∧
      sidecarPath (Files.join "/data" "db.coll.01.JSON.GZ.ENC") =
        Files.join "/data" "db.coll.01.JSON.GZ.ENC") ∧
    ("db.coll.01.json.gz.enc" ∈ dumpNames [⟨"db.coll.01.json.gz.enc", true⟩] ∧
      sidecarPath (Files.join "/gz.enc" "db.coll.01.json.gz.enc") =
        Files.join "/encryption.json" "db.coll.01.json.encryption.json") ∧
    ∃ es, "gz.enc.json.gz.enc" ∈ dumpNames es ∧ "encryption.json.json.gz.enc" ∈ dumpNames es ∧
      sidecarPath (Files.join "/data" "gz.enc.json.gz.enc") =
        sidecarPath (Files.join "/data" "encryption.json.json.gz.enc") := by
  refine ⟨⟨mem_dumpNames.mpr ⟨List.mem_singleton_self _, by decide +kernel⟩, by decide +kernel⟩,
    ⟨mem_dumpNames.mpr ⟨List.mem_singleton_self _, by decide +kernel⟩, by decide +kernel⟩,
    [⟨"gz.enc.json.gz.enc", true⟩, ⟨"encryption.json.json.gz.enc", true⟩],
    mem_dumpNames.mpr ⟨by simp, by decide +kernel⟩, mem_dumpNames.mpr ⟨by simp, by decide +kernel⟩,
    by decide +kernel⟩

end DumpImport.Dump
