import DumpImport.Dump.Collection
import DumpImport.Proofs.Text.Digits
import DumpImport.Proofs.Text.Pattern
import Mathlib.Data.List.Basic

namespace DumpImport.Dump.Collection

open Text

structure Parts where
  before : List Char
  database : List Char
  collection : List Char
  number : List Char
  suffix : List Char

namespace Parts

def text (p : Parts) : List Char :=
  p.before ++ (p.database ++ '.' :: (p.collection ++ '.' :: (p.number ++ p.suffix)))

structure Cut (word : Char → Bool) (s : List Char) (p : Parts) : Prop where
  text : p.text = s
  database : IsRun (isNamePart word) p.database
  collection : IsRun (isNamePart word) p.collection
  number : IsDigits p.number
  suffix : List.Forall₂ (fun l c => foldsTo l c = true) ending p.suffix

def Whole (word : Char → Bool) (p : Parts) : Prop := ∀ c ∈ p.before.getLast?, isNamePart word c = false

structure Agree (p q : Parts) : Prop where
  head : p.before ++ p.database = q.before ++ q.database
  collection : p.collection = q.collection
  number : p.number = q.number
  suffix : p.suffix = q.suffix

end Parts

variable {word : Char → Bool} {p q : Parts} {s : List Char} {us : List (List Char)}

section Pattern

lemma made_dot_iff {ps : List Item} : Made (.one (· == '.') :: ps) s us ↔
    ∃ r, s = '.' :: r ∧ Made ps r us := by
  rw [made_one_iff]
  constructor
  · rintro ⟨c, r, rfl, hc, h⟩
    obtain rfl : c = '.' := by simpa using hc
    exact ⟨r, rfl, h⟩
  · rintro ⟨r, rfl, h⟩
    exact ⟨'.', r, rfl, rfl, h⟩

lemma made_namePattern_iff : Made (namePattern word) s us ↔
    ∃ p : Parts, p.Cut word s ∧ p.before = [] ∧ us = [p.database, p.collection, p.number] := by
  simp only [namePattern, List.cons_append, List.nil_append, made_run_iff, made_dot_iff, made_ones_iff]
  constructor
  · rintro ⟨d, _, _, rfl, rfl, hd, _, rfl, c, _, _, rfl, rfl, hc, _, rfl, n, e, _, rfl, rfl, hn, he, rfl⟩
    exact ⟨⟨[], d, c, n, e⟩, ⟨rfl, hd, hc, hn, he⟩, rfl, rfl⟩
  · rintro ⟨⟨b, d, c, n, e⟩, ⟨rfl, hd, hc, hn, he⟩, rfl, rfl⟩
    exact ⟨d, _, _, rfl, rfl, hd, _, rfl, c, _, _, rfl, rfl, hc, _, rfl, n, e, _, rfl, rfl, hn, he, rfl⟩

lemma Parts.Cut.made (h : p.Cut word s) : ∃ r, s = p.before ++ r ∧
    Made (namePattern word) r [p.database, p.collection, p.number] := by
  refine ⟨_, h.text.symm, made_namePattern_iff.mpr ?_⟩
  exact ⟨⟨[], p.database, p.collection, p.number, p.suffix⟩,
    ⟨rfl, h.database, h.collection, h.number, h.suffix⟩, rfl, rfl⟩

lemma exists_whole (h : search (namePattern word) s = some us) :
    ∃ p : Parts, p.Cut word s ∧ p.Whole word ∧ us = [p.database, p.collection, p.number] := by
  obtain ⟨before, r, rfl, hm, hfirst⟩ := search_eq_some h
  obtain ⟨⟨_, d, c, n, e⟩, ⟨rfl, hd, hc, hn, he⟩, rfl, rfl⟩ := made_namePattern_iff.mp hm
  refine ⟨⟨before, d, c, n, e⟩, ⟨rfl, hd, hc, hn, he⟩, ?_, rfl⟩
  intro x hx
  by_contra hpart
  obtain ⟨b, rfl⟩ := List.getLast?_eq_some_iff.mp hx
  have hearlier : Parts.Cut word (b ++ [x] ++ Parts.text ⟨[], d, c, n, e⟩) ⟨b, x :: d, c, n, e⟩ :=
    ⟨by simp [Parts.text], IsRun.cons (Bool.not_eq_false _ ▸ hpart) hd.2, hc, hn, he⟩
  obtain ⟨r, hr, hm'⟩ := hearlier.made
  have := hfirst b r _ hr hm'
  rw [List.length_append, List.length_singleton] at this
  omega

lemma search_isSome_iff : (search (namePattern word) s).isSome ↔ ∃ p : Parts, p.Cut word s := by
  constructor
  · intro h
    obtain ⟨us, hs⟩ := Option.isSome_iff_exists.mp h
    obtain ⟨p, hp, -⟩ := exists_whole hs
    exact ⟨p, hp⟩
  · rintro ⟨p, hp⟩
    obtain ⟨r, rfl, hm⟩ := hp.made
    exact search_isSome hm

end Pattern

section Unique

lemma dot_notMem_of_isRun (hdot : word '.' = false) {u : List Char} (h : IsRun (isNamePart word) u) :
    '.' ∉ u := by
  intro hm
  have := h.2 '.' hm
  rw [isNamePart, hdot] at this
  cases this

lemma dot_notMem_of_isDigits {n : List Char} (h : IsDigits n) : '.' ∉ n :=
  fun hm => absurd (h.2 '.' hm) (by decide)

lemma append_dot_inj {u u' v v' : List Char} (hv : '.' ∉ v) (hv' : '.' ∉ v')
    (h : u ++ '.' :: v = u' ++ '.' :: v') : u = u' ∧ v = v' := by
  have hs := congrArg (List.splitOn '.') h
  rw [List.splitOn_append_cons_self, List.splitOn_append_cons_self, List.splitOn_eq_singleton hv,
    List.splitOn_eq_singleton hv'] at hs
  obtain ⟨-, hlast⟩ := List.append_inj' hs rfl
  obtain rfl := List.singleton_inj.mp hlast
  exact ⟨List.append_cancel_right h, rfl⟩

lemma Parts.Cut.agree (hdot : word '.' = false) (hp : p.Cut word s) (hq : q.Cut word s) : p.Agree q := by
  obtain ⟨b, d, c, n, e⟩ := p
  obtain ⟨b', d', c', n', e'⟩ := q
  have hlength : e.length = e'.length := hp.suffix.length_eq.symm.trans hq.suffix.length_eq
  have htext : (((b ++ d) ++ '.' :: c) ++ '.' :: n) ++ e =
      (((b' ++ d') ++ '.' :: c') ++ '.' :: n') ++ e' := by
    simpa [Parts.text] using hp.text.trans hq.text.symm
  obtain ⟨hnumber, rfl⟩ := List.append_inj' htext hlength
  obtain ⟨hcollection, rfl⟩ :=
    append_dot_inj (dot_notMem_of_isDigits hp.number) (dot_notMem_of_isDigits hq.number) hnumber
  obtain ⟨hhead, rfl⟩ :=
    append_dot_inj (dot_notMem_of_isRun hdot hp.collection)
      (dot_notMem_of_isRun hdot hq.collection) hcollection
  exact ⟨hhead, rfl, rfl, rfl⟩

lemma Parts.Agree.symm (h : p.Agree q) : q.Agree p :=
  ⟨h.head.symm, h.collection.symm, h.number.symm, h.suffix.symm⟩

lemma Parts.Agree.database_suffix (h : p.Agree q) (hp : p.Whole word) (hq : q.Cut word s) :
    q.database <:+ p.database := by
  have hd : p.database <:+ p.before ++ p.database := List.suffix_append _ _
  have hd' : q.database <:+ p.before ++ p.database := h.head ▸ List.suffix_append _ _
  rcases List.suffix_or_suffix_of_suffix hd hd' with ⟨e, he⟩ | hshort
  · rcases List.eq_nil_or_concat e with rfl | ⟨l, x, rfl⟩
    · exact he ▸ List.suffix_rfl
    · -- The longer database would take the character before the whole one.
      have hb : p.before = q.before ++ l ++ [x] := by
        have hhead := h.head
        rw [← he, ← List.append_assoc, List.append_cancel_right_eq] at hhead
        simpa using hhead
      have hx : isNamePart word x = false := hp x (by rw [hb, List.getLast?_concat]; rfl)
      rw [hq.database.2 x (he ▸ by simp)] at hx
      cases hx
  · exact hshort

lemma Parts.Cut.unique (hdot : word '.' = false) (hp : p.Cut word s) (hq : q.Cut word s) (hpw : p.Whole word)
    (hqw : q.Whole word) : p = q := by
  have ha := hp.agree hdot hq
  have hlength := (ha.database_suffix hpw hq).length_le
  have hdatabase := (ha.symm.database_suffix hqw hp).eq_of_length_le hlength
  obtain ⟨b, d, c, n, e⟩ := p
  obtain ⟨b', d', c', n', e'⟩ := q
  obtain ⟨hhead, rfl, rfl, rfl⟩ := ha
  obtain rfl : d = d' := hdatabase
  obtain rfl := List.append_cancel_right hhead
  rfl

lemma existsUnique_whole (hdot : word '.' = false) (h : ∃ p : Parts, p.Cut word s) :
    ∃! p : Parts, p.Cut word s ∧ p.Whole word := by
  obtain ⟨us, hs⟩ := Option.isSome_iff_exists.mp (search_isSome_iff.mpr h)
  obtain ⟨p, hp, hw, -⟩ := exists_whole hs
  exact ⟨p, ⟨hp, hw⟩, fun q hq => hq.1.unique hdot hp hq.2 hw⟩

lemma Parts.Cut.ofName? (hdot : word '.' = false) (hp : p.Cut word s) (hw : p.Whole word) :
    Collection.ofName? word s = some ⟨String.ofList p.database, String.ofList p.collection⟩ := by
  obtain ⟨us, hs⟩ := Option.isSome_iff_exists.mp (search_isSome_iff.mpr ⟨p, hp⟩)
  obtain ⟨q, hq, hqw, rfl⟩ := exists_whole hs
  obtain rfl := hq.unique hdot hp hqw hw
  rw [Collection.ofName?, hs]

end Unique

section Path

lemma fileName_last (dir : List Char)
    (hdir : dir = [] ∨ ∃ l, dir = l ++ ['/']) (hs : '/' ∉ s) (hl : 2 < s.length) :
    fileName (dir ++ s) = s := by
  have hsplit : ∃ l, (dir ++ s).splitOn '/' = l ++ [s] := by
    rcases hdir with rfl | ⟨l, rfl⟩
    · exact ⟨[], List.splitOn_eq_singleton hs⟩
    · refine ⟨l.splitOn '/', ?_⟩
      rw [List.append_assoc, List.singleton_append, List.splitOn_append_cons_self,
        List.splitOn_eq_singleton hs]
  have hne : s ≠ [] ∧ s ≠ ['.'] ∧ s ≠ ['.', '.'] := by
    refine ⟨?_, ?_, ?_⟩ <;> rintro rfl <;> simp at hl
  obtain ⟨l, hl⟩ := hsplit
  simp [fileName, hl, hne]

lemma cut_plain {d c n : List Char} (hd : IsRun (isNamePart word) d) (hc : IsRun (isNamePart word) c)
    (hn : IsDigits n) : Parts.Cut word (d ++ '.' :: (c ++ '.' :: (n ++ ending))) ⟨[], d, c, n, ending⟩ :=
  ⟨rfl, hd, hc, hn, List.forall₂_same.mpr (List.all_eq_true.mp (by decide))⟩

lemma slash_notMem_plain {d c n : List Char} (hslash : '/' ∉ d ++ c) (hn : IsDigits n) :
    '/' ∉ d ++ '.' :: (c ++ '.' :: (n ++ ending)) := by
  have hdigits : '/' ∉ n := fun hm => absurd (hn.2 '/' hm) (by decide)
  have hending : '/' ∉ ending := by decide
  simp only [List.mem_append, not_or] at hslash
  simp [hslash, hdigits, hending]

lemma named_plain (hdot : word '.' = false) {dir d c n : List Char} (hdir : dir = [] ∨ ∃ l, dir = l ++ ['/'])
    (hd : IsRun (isNamePart word) d) (hc : IsRun (isNamePart word) c) (hn : IsDigits n)
    (hslash : '/' ∉ d ++ c) :
    named word (String.ofList (dir ++ (d ++ '.' :: (c ++ '.' :: (n ++ ending))))) =
      ⟨String.ofList d, String.ofList c⟩ := by
  have hlength : 2 < (d ++ '.' :: (c ++ '.' :: (n ++ ending))).length := by
    have : ending.length = 12 := by decide
    simp only [List.length_append, List.length_cons]
    omega
  rw [named, String.toList_ofList, fileName_last dir hdir (slash_notMem_plain hslash hn) hlength,
    (cut_plain hd hc hn).ofName? hdot (by rintro x ⟨⟩)]
  rfl

end Path

/-- Nothing is asked of the word characters but that the dot is none of them. -/
theorem name_read_from_end (hdot : word '.' = false) :
    (∀ path s, fileName (String.toList path) = s →
      ((search (namePattern word) s).isSome ↔ ∃ p : Parts, p.Cut word s) ∧
      ((∃ p : Parts, p.Cut word s) → ∃! p : Parts, p.Cut word s ∧ p.Whole word) ∧
      (∀ p : Parts, p.Cut word s → p.Whole word →
        named word path = ⟨String.ofList p.database, String.ofList p.collection⟩ ∧ '.' ∉ p.collection ∧
        ∀ q : Parts, q.Cut word s → q.collection = p.collection ∧ q.number = p.number ∧
          q.database <:+ p.database) ∧
      ((¬ ∃ p : Parts, p.Cut word s) → named word path = unset)) ∧
    ∀ dir d c n : List Char, (dir = [] ∨ ∃ l, dir = l ++ ['/']) → IsRun (isNamePart word) d →
      IsRun (isNamePart word) c → IsDigits n → '/' ∉ d ++ c →
      named word (String.ofList (dir ++ (d ++ '.' :: (c ++ '.' :: (n ++ ending))))) =
        ⟨String.ofList d, String.ofList c⟩ := by
  constructor
  · intro path s hs
    refine ⟨search_isSome_iff, existsUnique_whole hdot, ?_, ?_⟩
    · intro p hp hw
      refine ⟨?_, dot_notMem_of_isRun hdot hp.collection, ?_⟩
      · rw [named, hs, hp.ofName? hdot hw]
        rfl
      · intro q hq
        have ha := hp.agree hdot hq
        exact ⟨ha.collection.symm, ha.number.symm, ha.database_suffix hw hq⟩
    · intro h
      have hn : search (namePattern word) s = none := by
        rwa [← Option.not_isSome_iff_eq_none, search_isSome_iff]
      rw [named, hs, ofName?, hn]
      rfl
  · intro dir d c n hdir hd hc hn hslash
    exact named_plain hdot hdir hd hc hn hslash

theorem name_read_from_end_dots : Text.isWord '.' = false ∧
    ofPath "/data/my core-db.Claims.2024.0001.JSON.GZ.ENC" = ⟨"Claims", "2024"⟩ := by
  have hdot : Text.isWord '.' = false := by decide
  have hs : fileName "/data/my core-db.Claims.2024.0001.JSON.GZ.ENC".toList =
      "my core-db.Claims.2024.0001.JSON.GZ.ENC".toList :=
    fileName_last "/data/".toList (.inr ⟨"/data".toList, rfl⟩) (by decide) (by decide)
  obtain ⟨-, -, hnamed, -⟩ := (name_read_from_end hdot).1 _ _ hs
  refine ⟨hdot,
    (hnamed ⟨"my core-db.".toList, "Claims".toList, "2024".toList, "0001".toList, ".JSON.GZ.ENC".toList⟩
      ⟨rfl, isRun_of_all (by decide) (by decide), isRun_of_all (by decide) (by decide),
        isRun_of_all (by decide) (by decide), by decide⟩ ?_).1⟩
  rintro x ⟨⟩
  decide

end DumpImport.Dump.Collection
