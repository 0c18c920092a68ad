import DumpImport.Load.Run
import DumpImport.Proofs.Record.StorageKey

namespace DumpImport.Load

open Record

namespace Summary

variable (a b c : Summary)

lemma add_def : a + b = ⟨a.files + b.files, a.written + b.written, a.tooEarly + b.tooEarly,
    a.tooLate + b.tooLate, a.failed + b.failed⟩ := rfl

instance : Zero Summary := ⟨zero⟩

lemma zero_def : (0 : Summary) = ⟨0, 0, 0, 0, 0⟩ := rfl

instance : AddCommMonoid Summary where
  add_assoc a b c := by simp only [add_def, Nat.add_assoc]
  zero_add a := by simp only [add_def, zero_def, Nat.zero_add]
  add_zero a := by simp only [add_def, zero_def, Nat.add_zero]
  add_comm a b := by simp only [add_def, Nat.add_comm]
  nsmul := nsmulRec

lemma files_add : (a + b).files = a.files + b.files := rfl

lemma records_add : (a + b).records = a.records + b.records := by
  simp only [records, add_def]
  omega

def ofVerdict : Option Verdict → Summary
  | none => ⟨0, 0, 0, 0, 1⟩
  | some .keep => ⟨0, 1, 0, 0, 0⟩
  | some .tooEarly => ⟨0, 0, 1, 0, 0⟩
  | some .tooLate => ⟨0, 0, 0, 1, 0⟩

lemma files_ofVerdict (v : Option Verdict) : (ofVerdict v).files = 0 := by
  rcases v with _ | _ | _ | _ <;> rfl

lemma records_ofVerdict (v : Option Verdict) : (ofVerdict v).records = 1 := by
  rcases v with _ | _ | _ | _ <;> rfl

end Summary

section Counting

variable (m : Mapper) (c : Dump.Collection)

def outcome (line : String) : Option Verdict :=
  (m.map c ⟨.ofNat 0, ""⟩ line).toOption.map (·.verdict)

def counted (line : String) : Summary := .ofVerdict (outcome m c line)

def countedAll (lines : List String) : Summary := (lines.map (counted m c)).sum

def countedFile (f : Dump.Source) : Summary := .oneFile + countedAll m f.collection f.lines

variable {m c}

lemma outcome_of_ok {d : Draw} {line : String} {r : Mapped} (h : m.map c d line = .ok r) :
    outcome m c line = some r.verdict := by
  obtain ⟨r', h', hv⟩ := Mapper.map_of_draw h ⟨.ofNat 0, ""⟩
  rw [outcome, h', ← hv]
  rfl

lemma outcome_of_error {d : Draw} {line : String} {e : Record.Error} (h : m.map c d line = .error e) :
    outcome m c line = none := by
  rw [outcome]
  rcases h' : m.map c ⟨.ofNat 0, ""⟩ line with e' | r'
  · rfl
  · obtain ⟨r, hr, -⟩ := Mapper.map_of_draw h' d
    cases h.symm.trans hr

lemma countedAll_cons (line : String) (lines : List String) :
    countedAll m c (line :: lines) = counted m c line + countedAll m c lines := by
  rw [countedAll, List.map_cons, List.sum_cons, countedAll]

lemma countedAll_totals (lines : List String) :
    (countedAll m c lines).files = 0 ∧ (countedAll m c lines).records = lines.length := by
  induction lines with
  | nil => exact ⟨rfl, rfl⟩
  | cons line lines ih =>
    rw [countedAll_cons, Summary.files_add, Summary.records_add, ih.1, ih.2, counted, Summary.files_ofVerdict,
      Summary.records_ofVerdict, List.length_cons]
    exact ⟨rfl, Nat.add_comm _ _⟩

lemma countedFile_totals (f : Dump.Source) :
    (countedFile m f).files = 1 ∧ (countedFile m f).records = f.lines.length := by
  rw [countedFile, Summary.files_add, Summary.records_add, (countedAll_totals f.lines).1,
    (countedAll_totals f.lines).2]
  exact ⟨rfl, Nat.zero_add _⟩

lemma sum_totals (contents : String → Dump.Source) (paths : List String) :
    ((paths.map fun p => countedFile m (contents p)).sum).files = paths.length ∧
      ((paths.map fun p => countedFile m (contents p)).sum).records =
        (paths.map fun p => (contents p).lines.length).sum := by
  induction paths with
  | nil => exact ⟨rfl, rfl⟩
  | cons p ps ih =>
    simp only [List.map_cons, List.sum_cons, Summary.files_add, Summary.records_add, ih.1, ih.2,
      (countedFile_totals (contents p)).1, (countedFile_totals (contents p)).2, List.length_cons]
    exact ⟨Nat.add_comm _ _, trivial⟩

end Counting

/-- The records of the lines that are kept, in the order of the lines, each under some draw. -/
inductive Kept (m : Mapper) (c : Dump.Collection) : List String → List Mapped → Prop where
  | nil : Kept m c [] []
  | skip {line lines rs} (held : ∀ d r, m.map c d line = .ok r → r.verdict ≠ .keep)
      (rest : Kept m c lines rs) :
      Kept m c (line :: lines) rs
  | keep {d r line lines rs} (mapped : m.map c d line = .ok r) (keep : r.verdict = .keep)
      (rest : Kept m c lines rs) : Kept m c (line :: lines) (r :: rs)

lemma Kept.append {m : Mapper} {c : Dump.Collection} {as bs : List String} {rs ts : List Mapped}
    (ha : Kept m c as rs) (hb : Kept m c bs ts) : Kept m c (as ++ bs) (rs ++ ts) := by
  induction ha with
  | nil => exact hb
  | skip held _ ih => exact .skip held ih
  | keep mapped keep _ ih => exact .keep mapped keep ih

def writtenBy (i : Nat) (log : List (Nat × Mapped)) : List Mapped :=
  (log.filter fun e => e.1 = i).map Prod.snd

lemma writtenBy_append (i : Nat) (log log' : List (Nat × Mapped)) :
    writtenBy i (log ++ log') = writtenBy i log ++ writtenBy i log' := by
  simp [writtenBy]

lemma writtenBy_self (i : Nat) (rs : List Mapped) : writtenBy i (rs.map (i, ·)) = rs := by
  induction rs with
  | nil => rfl
  | cons r rs ih => simpa [writtenBy] using ih

lemma writtenBy_ne {i j : Nat} (h : i ≠ j) (rs : List Mapped) : writtenBy i (rs.map (j, ·)) = [] := by
  simp [writtenBy, List.filter_eq_nil_iff, h.symm]

variable {σ : Type}

/-- Every file opens and can be read to its end, the sink takes every record, and nothing else
reaches it. -/
structure Steady (l : Loader (StateM σ)) (received : σ → List Mapped) (contents : String → Dump.Source)
    (paths : List String) : Prop where
  load : ∀ p ∈ paths, ∀ s, (l.load p s).1 = .ok (contents p) ∧ received (l.load p s).2 = received s
  whole : ∀ p ∈ paths, (contents p).failure = none
  draw : ∀ s, received (l.draw s).2 = received s
  count : ∀ k s, received (l.count k s).2 = received s
  write : ∀ r s, (l.sink.write r s).1 = .ok () ∧ received (l.sink.write r s).2 = received s ++ [r]
  flush : ∀ s, (l.sink.flush s).1 = .ok () ∧ received (l.sink.flush s).2 = received s

/-- Draws and counts leave what is seen of the world as it is. -/
structure Discreet {α : Type} (l : Loader (StateM σ)) (seen : σ → α) : Prop where
  draw : ∀ s, seen (l.draw s).2 = seen s
  count : ∀ k s, seen (l.count k s).2 = seen s

namespace Discreet

variable {α : Type} {l : Loader (StateM σ)} {seen : σ → α} (hl : Discreet l seen)

include hl

lemma prepare (c : Dump.Collection) (n : Summary) (line : String) (s : σ) :
    seen (l.prepare c n line s).2 = seen s ∧
    ((∃ d r, l.mapper.map c d line = .ok r ∧ r.verdict = .keep ∧ (l.prepare c n line s).1 = .write r) ∨
      ((∀ d r, l.mapper.map c d line = .ok r → r.verdict ≠ .keep) ∧
        (l.prepare c n line s).1 = .nothing (n + counted l.mapper c line))) := by
  have hd := hl.draw s
  rw [Loader.prepare, bind_apply, mapLine, bind_apply]
  generalize l.draw s = ds at hd
  obtain ⟨d, s'⟩ := ds
  simp only at hd
  cases hm : l.mapper.map c d line with
  | error e =>
    refine ⟨(hl.count _ _).trans hd, .inr ⟨fun d' r h => ?_, ?_⟩⟩
    · cases (outcome_of_error hm).symm.trans (outcome_of_ok h)
    · rw [counted, outcome_of_error hm]
      rfl
  | ok r =>
    have hc := (hl.count (.recordMapped c.name) s').trans hd
    have ho : counted l.mapper c line = .ofVerdict (some r.verdict) := by rw [counted, outcome_of_ok hm]
    have hne (hv : r.verdict ≠ .keep) : ∀ d' r', l.mapper.map c d' line = .ok r' → r'.verdict ≠ .keep := by
      intro d' r' h'
      have he := (outcome_of_ok h').symm.trans (outcome_of_ok hm)
      rwa [Option.some.inj he]
    cases hv : r.verdict with
    | keep =>
      simp only [bind_apply, pure_apply, Mapper.route_keep hm hv]
      exact ⟨hc, .inl ⟨d, r, hm, hv, rfl⟩⟩
    | tooEarly =>
      rw [hv] at ho hne
      simp only [bind_apply, pure_apply, Loader.route, hv, ho]
      exact ⟨(hl.count _ _).trans hc, .inr ⟨hne (by decide), rfl⟩⟩
    | tooLate =>
      rw [hv] at ho hne
      simp only [bind_apply, pure_apply, Loader.route, hv, ho]
      exact ⟨(hl.count _ _).trans hc, .inr ⟨hne (by decide), rfl⟩⟩

lemma finish (c : Dump.Collection) (s : σ) : seen (l.finish c s).2 = seen s := by
  rw [Loader.finish, bind_apply]
  exact (hl.count _ _).trans (hl.count _ _)

end Discreet

namespace Steady

variable {l : Loader (StateM σ)} {received : σ → List Mapped} {contents : String → Dump.Source}
  {paths : List String} (hl : Steady l received contents paths)

include hl

lemma discreet : Discreet l received := ⟨hl.draw, hl.count⟩

lemma store (n : Summary) (r : Mapped) (s : σ) :
    (l.store n r s).1 = .ok (n + .ofVerdict (some .keep)) ∧
      received (l.store n r s).2 = received s ++ [r] := by
  obtain ⟨hw, hr⟩ := hl.write r s
  rw [Loader.store, bind_of_fst hw]
  exact ⟨rfl, hr⟩

lemma line (c : Dump.Collection) (n : Summary) (line : String) (s : σ) :
    (l.line c n line s).1 = .ok (n + counted l.mapper c line) ∧
      ∃ rs, Kept l.mapper c [line] rs ∧ received (l.line c n line s).2 = received s ++ rs := by
  obtain ⟨hr, hp⟩ := hl.discreet.prepare c n line s
  rw [Loader.line]
  rcases hp with ⟨d, r, hm, hv, hp⟩ | ⟨hne, hp⟩
  · obtain ⟨hs, ht⟩ := hl.store n r (l.prepare c n line s).2
    rw [bind_of_fst hp, counted, outcome_of_ok hm, hv]
    exact ⟨hs, [r], .keep hm hv .nil, ht.trans (by rw [hr])⟩
  · rw [bind_of_fst hp]
    exact ⟨rfl, [], .skip hne .nil, by rw [List.append_nil]; exact hr⟩

lemma lines (c : Dump.Collection) (n : Summary) (ts : List String) (s : σ) :
    (l.lines c n ts s).1 = .ok (n + countedAll l.mapper c ts) ∧
      ∃ rs, Kept l.mapper c ts rs ∧ received (l.lines c n ts s).2 = received s ++ rs := by
  induction ts generalizing n s with
  | nil =>
    rw [countedAll, List.map_nil, List.sum_nil, add_zero]
    exact ⟨rfl, [], .nil, (List.append_nil _).symm⟩
  | cons t ts ih =>
    obtain ⟨ht, rs, hk, hr⟩ := hl.line c n t s
    obtain ⟨hs, rs', hk', hr'⟩ := ih (n + counted l.mapper c t) (l.line c n t s).2
    rw [Loader.lines, bind_of_fst ht, countedAll_cons, ← add_assoc, ← List.singleton_append]
    refine ⟨hs, rs ++ rs', hk.append hk', ?_⟩
    rw [← List.append_assoc, ← hr]
    exact hr'

lemma file {p : String} (hp : p ∈ paths) (s : σ) :
    (l.file p s).1 = .ok (countedFile l.mapper (contents p)) ∧
      ∃ rs, Kept l.mapper (contents p).collection (contents p).lines rs ∧
        received (l.file p s).2 = received s ++ rs := by
  obtain ⟨ho, hr⟩ := hl.load p hp s
  obtain ⟨hs, rs, hk, ht⟩ := hl.lines (contents p).collection .oneFile (contents p).lines (l.load p s).2
  rw [Loader.file, bind_of_fst ho]
  simp only [Loader.source]
  rw [bind_of_fst hs]
  simp only [hl.whole p hp, bind_apply, pure_apply]
  exact ⟨rfl, rs, hk, (hl.discreet.finish _ _).trans (ht.trans (by rw [hr]))⟩

lemma files {ps : List String} (hp : ∀ p ∈ ps, p ∈ paths) (n : Summary) (s : σ) :
    (l.files n ps s).1 = .ok (n + (ps.map fun p => countedFile l.mapper (contents p)).sum) := by
  induction ps generalizing n s with
  | nil =>
    rw [List.map_nil, List.sum_nil, add_zero]
    rfl
  | cons p ps ih =>
    rw [List.forall_mem_cons] at hp
    rw [Loader.files, bind_of_fst (hl.file hp.1 s).1, List.map_cons, List.sum_cons, ← add_assoc]
    exact ih hp.2 _ _

lemma run (s : σ) :
    (l.run paths s).1 = .ok (paths.map fun p => countedFile l.mapper (contents p)).sum := by
  have hf := hl.files (fun _ => id) 0 s
  rw [zero_add] at hf
  rw [Loader.run, show Summary.zero = 0 from rfl, bind_of_fst hf]
  simp only
  rw [bind_of_fst (hl.flush _).1]
  rfl

end Steady

end DumpImport.Load
