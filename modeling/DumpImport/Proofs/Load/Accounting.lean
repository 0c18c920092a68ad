import DumpImport.Proofs.Load.Concurrent

namespace DumpImport.Load

open Record

variable {σ : Type}

abbrev Put := Mapped × Except Sink.Error Unit

def taken (rs : List Mapped) : List Put := rs.map (·, .ok ())

/-- What is put to the sink can be told from the state of the world, and nothing else is taken for it. -/
structure Watched (l : Loader (StateM σ)) (puts : σ → List Put) : Prop extends Discreet l puts where
  write : ∀ r s, puts (l.sink.write r s).2 = puts s ++ [(r, (l.sink.write r s).1)]

def number (m : Mapper) (c : Dump.Collection) (v : Option Verdict) (lines : List String) : ℕ :=
  lines.countP (outcome m c · = v)

section Numbers

variable {m : Mapper} {c : Dump.Collection}

lemma outcome_eq (d : Draw) (line : String) :
    outcome m c line = (m.map c d line).toOption.map (·.verdict) := by
  cases h : m.map c d line with
  | ok r => exact outcome_of_ok h
  | error e => exact outcome_of_error h

lemma number_cons (v : Option Verdict) (line : String) (lines : List String) :
    number m c v (line :: lines) = number m c v lines + if outcome m c line = v then 1 else 0 := by
  simp only [number, List.countP_cons, decide_eq_true_eq]

lemma number_without {before after : List String} {line : String} (v : Option Verdict) :
    number m c v (before ++ line :: after) =
      number m c v (before ++ after) + if outcome m c line = v then 1 else 0 := by
  simp only [number, List.countP_append, List.countP_cons, decide_eq_true_eq]
  omega

lemma countedAll_eq (lines : List String) :
    countedAll m c lines = ⟨0, number m c (some .keep) lines, number m c (some .tooEarly) lines,
      number m c (some .tooLate) lines, number m c none lines⟩ := by
  induction lines with
  | nil => rfl
  | cons line lines ih =>
    rw [countedAll_cons, ih, counted]
    simp only [number_cons]
    rcases outcome m c line with _ | _ | _ | _ <;> simp [Summary.ofVerdict, Summary.add_def, Nat.add_comm]

lemma Kept.without {before after : List String} {line : String} {rs : List Mapped}
    (hl : outcome m c line = none) (h : Kept m c (before ++ line :: after) rs) :
    Kept m c (before ++ after) rs := by
  induction before generalizing rs with
  | nil =>
    cases h with
    | skip _ rest => exact rest
    | keep mapped _ _ => cases hl.symm.trans (outcome_of_ok mapped)
  | cons b before ih =>
    cases h with
    | skip held rest => exact .skip held (ih rest)
    | keep mapped keep rest => exact .keep mapped keep (ih rest)

end Numbers

inductive Ends (m : Mapper) (c : Dump.Collection) (n : Summary) (lines : List String) :
    Except Error Summary → List Put → Prop where
  | through {rs} (kept : Kept m c lines rs) : Ends m c n lines (.ok (n + countedAll m c lines)) (taken rs)
  | refused {before line after rs d r e} (split : lines = before ++ line :: after) (kept : Kept m c before rs)
      (mapped : m.map c d line = .ok r) (keep : r.verdict = .keep) :
      Ends m c n lines (.error (.sink e)) (taken rs ++ [(r, .error e)])

lemma Ends.cons {m : Mapper} {c : Dump.Collection} {n : Summary} {line : String} {lines : List String}
    {rs : List Mapped} {result : Except Error Summary} {ps : List Put} (hk : Kept m c [line] rs)
    (h : Ends m c (n + counted m c line) lines result ps) :
    Ends m c n (line :: lines) result (taken rs ++ ps) := by
  cases h with
  | through kept =>
    rw [add_assoc, ← countedAll_cons, taken, taken, ← List.map_append]
    exact .through (hk.append kept)
  | refused split kept mapped keep =>
    rw [← List.append_assoc, taken, taken, ← List.map_append]
    exact .refused (by rw [split]; rfl) (hk.append kept) mapped keep

def tally (m : Mapper) (f : Dump.Source) : Summary :=
  ⟨1, number m f.collection (some .keep) f.lines, number m f.collection (some .tooEarly) f.lines,
    number m f.collection (some .tooLate) f.lines, number m f.collection none f.lines⟩

def AllTaken (ps : List Put) : Prop := ∀ p ∈ ps, p.2 = .ok ()

structure Accounted (m : Mapper) (f : Dump.Source) (result : Except Error Summary)
    (ps : List Put) : Prop where
  given : AllTaken ps → ∃ rs, Kept m f.collection f.lines rs ∧ ps = taken rs
  whole : AllTaken ps → f.failure = none → result = .ok (tally m f)
  broken : AllTaken ps → ∀ e, f.failure = some e → result = .error (.dump e)
  refused : ∀ r e, (r, .error e) ∈ ps → result = .error (.sink e) ∧
    ∃ before line after rs d, f.lines = before ++ line :: after ∧ Kept m f.collection before rs ∧
      m.map f.collection d line = .ok r ∧ r.verdict = .keep ∧ ps = taken rs ++ [(r, .error e)]

section Tallies

variable {m : Mapper} {f : Dump.Source}

lemma countedFile_eq_tally (m : Mapper) (f : Dump.Source) : countedFile m f = tally m f := by
  rw [countedFile, countedAll_eq, Summary.add_def, tally]
  simp [Summary.oneFile, Summary.zero]

lemma tally_records (m : Mapper) (f : Dump.Source) : (tally m f).records = f.lines.length := by
  rw [← countedFile_eq_tally]
  exact (countedFile_totals f).2

lemma tally_without {before after : List String} {line : String} (hf : f.lines = before ++ line :: after)
    (hl : outcome m f.collection line = none) :
    tally m f = { tally m { f with lines := before ++ after } with
      failed := (tally m { f with lines := before ++ after }).failed + 1 } := by
  simp [tally, hf, number_without, hl]

lemma taken_nil : taken [] = [] := rfl

lemma mem_taken {rs : List Mapped} {p : Put} (h : p ∈ taken rs) : p.2 = .ok () := by
  obtain ⟨r, -, rfl⟩ := List.mem_map.mp h
  rfl

lemma accounted_taken {rs : List Mapped} (hk : Kept m f.collection f.lines rs) :
    Accounted m f (f.failure.elim (.ok (countedFile m f)) (.error ∘ .dump)) (taken rs) where
  given _ := ⟨rs, hk, rfl⟩
  whole _ hf := by rw [hf, Option.elim_none, countedFile_eq_tally]
  broken _ e hf := by rw [hf, Option.elim_some, Function.comp_apply]
  refused r e h := nomatch mem_taken h

lemma accounted_refused {before after : List String} {line : String} {rs : List Mapped} {d : Draw}
    {r : Mapped} {e : Sink.Error} (hf : f.lines = before ++ line :: after)
    (hk : Kept m f.collection before rs) (hm : m.map f.collection d line = .ok r)
    (hv : r.verdict = .keep) :
    Accounted m f (.error (.sink e)) (taken rs ++ [(r, .error e)]) := by
  have hn : ¬AllTaken (taken rs ++ [(r, .error e)]) := fun h => nomatch h _ List.mem_concat_self
  refine ⟨fun h => absurd h hn, fun h => absurd h hn, fun h => absurd h hn, ?_⟩
  intro r' e' h
  rcases List.mem_append.mp h with h | h
  · cases mem_taken h
  · cases List.mem_singleton.mp h
    exact ⟨rfl, before, line, after, rs, d, hf, hk, hm, hv, rfl⟩

end Tallies

namespace Watched

variable {l : Loader (StateM σ)} {puts : σ → List Put} (hl : Watched l puts)

include hl

lemma store (n : Summary) (r : Mapped) (s : σ) :
    ((l.store n r s).1 = .ok (n + .ofVerdict (some .keep)) ∧ puts (l.store n r s).2 = puts s ++ taken [r]) ∨
      ∃ e, (l.store n r s).1 = .error (.sink e) ∧ puts (l.store n r s).2 = puts s ++ [(r, .error e)] := by
  have hw := hl.write r s
  cases ha : (l.sink.write r s).1 with
  | ok _ =>
    rw [ha] at hw
    rw [Loader.store, bind_of_fst ha]
    exact .inl ⟨rfl, hw⟩
  | error e =>
    rw [ha] at hw
    rw [Loader.store, bind_of_fst ha]
    exact .inr ⟨e, rfl, hw⟩

lemma line (c : Dump.Collection) (n : Summary) (line : String) (s : σ) :
    (∃ rs, (l.line c n line s).1 = .ok (n + counted l.mapper c line) ∧ Kept l.mapper c [line] rs ∧
      puts (l.line c n line s).2 = puts s ++ taken rs) ∨
    ∃ d r e, l.mapper.map c d line = .ok r ∧ r.verdict = .keep ∧ (l.line c n line s).1 = .error (.sink e) ∧
      puts (l.line c n line s).2 = puts s ++ [(r, .error e)] := by
  obtain ⟨hr, ⟨d, r, hm, hv, hp⟩ | ⟨hne, hp⟩⟩ := hl.prepare c n line s <;> rw [Loader.line, bind_of_fst hp]
  · rw [counted, outcome_of_ok hm, hv, ← hr]
    rcases hl.store n r (l.prepare c n line s).2 with ⟨hs, ht⟩ | ⟨e, hs, ht⟩
    · exact .inl ⟨[r], hs, .keep hm hv .nil, ht⟩
    · exact .inr ⟨d, r, e, hm, hv, hs, ht⟩
  · exact .inl ⟨[], rfl, .skip hne .nil, hr.trans (List.append_nil _).symm⟩

lemma lines (c : Dump.Collection) (n : Summary) (ts : List String) (s : σ) :
    ∃ ps, puts (l.lines c n ts s).2 = puts s ++ ps ∧ Ends l.mapper c n ts (l.lines c n ts s).1 ps := by
  induction ts generalizing n s with
  | nil =>
    have hends : Ends l.mapper c n [] (.ok (n + countedAll l.mapper c [])) (taken []) := .through .nil
    rw [countedAll, List.map_nil, List.sum_nil, add_zero] at hends
    exact ⟨[], (List.append_nil _).symm, hends⟩
  | cons t ts ih =>
    rcases hl.line c n t s with ⟨rs, hs, hk, ht⟩ | ⟨d, r, e, hm, hv, hs, ht⟩
    · obtain ⟨ps, hps, hends⟩ := ih (n + counted l.mapper c t) (l.line c n t s).2
      rw [Loader.lines, bind_of_fst hs]
      refine ⟨taken rs ++ ps, ?_, hends.cons hk⟩
      rw [← List.append_assoc, ← ht]
      exact hps
    · rw [Loader.lines, bind_of_fst hs]
      exact ⟨[(r, .error e)], ht, .refused (List.nil_append _).symm .nil hm hv⟩

lemma source (f : Dump.Source) (s : σ) : ∃ new, puts (l.source f s).2 = puts s ++ new ∧
    Accounted l.mapper f (l.source f s).1 new := by
  obtain ⟨ps, hps, hends⟩ := hl.lines f.collection .oneFile f.lines s
  refine ⟨ps, ?_⟩
  generalize hr : (l.lines f.collection .oneFile f.lines s).1 = result at hends
  rw [Loader.source, bind_of_fst hr]
  cases hends with
  | through kept =>
    have hacc := accounted_taken kept
    cases hf : f.failure with
    | none =>
      rw [hf] at hacc
      exact ⟨(hl.finish _ _).trans hps, hacc⟩
    | some e =>
      rw [hf] at hacc
      exact ⟨hps, hacc⟩
  | refused split kept mapped keep => exact ⟨hps, accounted_refused split kept mapped keep⟩

end Watched

/-- The counts of a file are in step with what the sink was given, whatever fails; a line that
cannot be mapped adds to the failures and changes nothing else. -/
theorem file_accounted {l : Loader (StateM σ)} {puts : σ → List Put} (hl : Watched l puts) (f : Dump.Source)
    (s : σ) : ∃ new, puts (l.source f s).2 = puts s ++ new ∧ Accounted l.mapper f (l.source f s).1 new ∧
      (tally l.mapper f).records = f.lines.length ∧
      (∀ d line, outcome l.mapper f.collection line =
        (l.mapper.map f.collection d line).toOption.map (·.verdict)) ∧
      ∀ before line after d e s' new', f.lines = before ++ line :: after →
        l.mapper.map f.collection d line = .error e →
        puts (l.source { f with lines := before ++ after } s').2 = puts s' ++ new' →
        AllTaken new → AllTaken new' →
          (l.source f s).1 = (l.source { f with lines := before ++ after } s').1.map
            (fun n => { n with failed := n.failed + 1 }) ∧
          ∃ rs, Kept l.mapper f.collection (before ++ after) rs ∧ new = taken rs := by
  obtain ⟨new, hnew, hacc⟩ := hl.source f s
  refine ⟨new, hnew, hacc, tally_records l.mapper f, outcome_eq, ?_⟩
  intro before line after d e s' new' hf hm hnew' ht ht'
  have ho := outcome_of_error hm
  obtain ⟨rs, hk, hrs⟩ := hacc.given ht
  refine ⟨?_, rs, Kept.without ho (hf ▸ hk), hrs⟩
  obtain ⟨new'', hnew'', hacc'⟩ := hl.source { f with lines := before ++ after } s'
  obtain rfl : new' = new'' := List.append_cancel_left (hnew'.symm.trans hnew'')
  rcases Option.eq_none_or_eq_some f.failure with hfail | ⟨e, hfail⟩
  · rw [hacc.whole ht hfail, hacc'.whole ht' hfail, tally_without hf ho]
    rfl
  · rw [hacc.broken ht e hfail, hacc'.broken ht' e hfail]
    rfl

lemma map_noRecord : ∃ e, Mapper.sample.map .unset Mapper.sampleDraw "no record" = .error e := by
  have hn : (prepare "no record").toOption.isNone := by decide +kernel
  cases hp : prepare "no record" with
  | error e =>
    refine ⟨e, ?_⟩
    rw [Mapper.map, hp]
    rfl
  | ok p =>
    rw [hp] at hn
    cases hn

lemma sampleLoader_watched : Watched sampleLoader taken :=
  ⟨⟨fun _ => rfl, fun _ _ => rfl⟩, fun _ _ => List.map_append⟩

def refused (rs : List Mapped) : List Put := rs.map (·, .error (.file .notFound))

lemma refused_nil : refused [] = [] := rfl

def closedLoader : Loader (StateM (List Mapped)) :=
  { sampleLoader with sink := ⟨fun r rs => (.error (.file .notFound), rs ++ [r]), pure (.ok ())⟩ }

lemma closedLoader_watched : Watched closedLoader refused :=
  ⟨⟨fun _ => rfl, fun _ _ => rfl⟩, fun _ _ => List.map_append⟩

lemma tally_sampleSource : tally .sample sampleSource = ⟨1, 1, 0, 0, 1⟩ := by
  obtain ⟨r, hr⟩ := Mapper.map_sampleLine
  obtain ⟨e, he⟩ := map_noRecord
  have hk := outcome_of_ok hr
  have hn := outcome_of_error he
  rw [Mapper.verdict_sampleLine hr] at hk
  simp [tally, sampleSource, number, hk, hn]

theorem file_accounted_sample :
    (sampleLoader.source sampleSource []).1 = .ok ⟨1, 1, 0, 0, 1⟩ ∧
    ((sampleLoader.source { sampleSource with lines := [Mapper.sampleLine] } []).1.map
      fun n => { n with failed := n.failed + 1 }) = .ok ⟨1, 1, 0, 0, 1⟩ ∧
    ∃ e r, (closedLoader.source sampleSource []).1 = .error (.sink e) ∧
      refused (closedLoader.source sampleSource []).2 = [(r, .error e)] := by
  obtain ⟨e, he⟩ := map_noRecord
  obtain ⟨r, hr⟩ := Mapper.map_sampleLine
  obtain ⟨new, hnew, hopen, -, -, hdrop⟩ := file_accounted sampleLoader_watched sampleSource []
  obtain ⟨puts, hputs, hclosed, -⟩ := file_accounted closedLoader_watched sampleSource []
  rw [taken_nil, List.nil_append] at hnew
  rw [refused_nil, List.nil_append] at hputs
  subst hnew hputs
  have hwhole := (hopen.whole (fun _ => mem_taken) rfl).trans (congrArg Except.ok tally_sampleSource)
  have hless := hdrop [Mapper.sampleLine] "no record" [] Mapper.sampleDraw e []
  simp only [List.append_nil] at hless
  have hless := hless _ rfl he (List.nil_append _).symm (fun _ => mem_taken) fun _ => mem_taken
  refine ⟨hwhole, hless.1.symm.trans hwhole, ?_⟩
  cases hrs : (closedLoader.source sampleSource []).2 with
  | nil =>
    rw [hrs] at hclosed
    obtain ⟨rs, hk, hnone⟩ := hclosed.given fun _ h => nomatch h
    obtain rfl := List.map_eq_nil_iff.mp hnone.symm
    cases hk with
    | skip held _ => exact absurd (Mapper.verdict_sampleLine hr) (held _ _ hr)
  | cons r rs =>
    rw [hrs] at hclosed
    obtain ⟨hresult, _, _, _, kept, _, -, -, -, -, hlast⟩ := hclosed.refused r _ List.mem_cons_self
    cases kept with
    | nil => exact ⟨_, r, hresult, hlast⟩
    | cons _ _ => cases hlast

end DumpImport.Load
