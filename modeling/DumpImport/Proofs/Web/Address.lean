import DumpImport.Proofs.Outcome
import DumpImport.Proofs.Text.Padding
import DumpImport.Proofs.Web.Form

namespace DumpImport.Web.Url

open Text

section Tails

structure Continues (t : List Char) : Prop where
  slash : ∀ c ∈ t.head?, c = '/'
  plain : ∀ c ∈ t, isPathChar c = true

lemma continues_slashes {t : List Char} (h : ∀ c ∈ t, c = '/') : Continues t := by
  refine ⟨fun c hc => h c (List.mem_of_mem_head? hc), fun c hc => ?_⟩
  rw [h c hc]
  decide

lemma pathChar_facts {c : Char} (h : isPathChar c = true) :
    isControlOrSpace c = false ∧ c ≠ '#' ∧ c ≠ '?' := by
  simp only [isPathChar, isFragmentChar, isGraphic, Bool.and_eq_true, decide_eq_true_eq] at h
  obtain ⟨⟨⟨hlow, -⟩, -⟩, hc⟩ := h
  refine ⟨decide_eq_false (Nat.not_le.mpr hlow), ?_, ?_⟩
  · rintro rfl
    exact hc (by simp)
  · rintro rfl
    exact hc (by simp)

variable {p : Char → Bool} {t : List Char}

lemma Continues.notMem (h : Continues t) : '#' ∉ t ∧ '?' ∉ t :=
  ⟨fun hc => (pathChar_facts (h.plain _ hc)).2.1 rfl, fun hc => (pathChar_facts (h.plain _ hc)).2.2 rfl⟩

lemma Continues.takeWhile_append (h : Continues t) (hp : p '/' = false) (f : List Char) :
    (f ++ t).takeWhile p = f.takeWhile p := by
  induction f with
  | nil =>
    cases t with
    | nil => rfl
    | cons c t =>
      obtain rfl := h.slash c rfl
      simp [hp]
  | cons c f ih => rw [List.cons_append, List.takeWhile_cons, List.takeWhile_cons, ih]

lemma Continues.dropWhile_append (h : Continues t) (hp : p '/' = false) (f : List Char) :
    (f ++ t).dropWhile p = f.dropWhile p ++ t := by
  induction f with
  | nil =>
    cases t with
    | nil => rfl
    | cons c t =>
      obtain rfl := h.slash c rfl
      simp [hp]
  | cons c f ih =>
    rw [List.cons_append, List.dropWhile_cons, List.dropWhile_cons, ih]
    split_ifs <;> rfl

end Tails

section Cleaning

variable {f t : List Char}

lemma dropTail_of_last {p : Char → Bool} {cs : List Char} (h : ∀ c ∈ cs.getLast?, p c = false) :
    dropTail p cs = cs := by
  rcases List.eq_nil_or_concat cs with rfl | ⟨cs, c, rfl⟩
  · rfl
  · rw [List.concat_eq_append] at h ⊢
    exact dropTail_last p (h c (by simp)) cs

lemma cleaned_append (ht : Continues t) (hl : ∀ c ∈ (f ++ t).getLast?, isControlOrSpace c = false) :
    cleaned (String.ofList (f ++ t)) =
      (f.dropWhile isControlOrSpace).filter (fun c => c ∉ ['\t', '\n', '\r']) ++ t := by
  have hlast : ∀ c ∈ (f.dropWhile isControlOrSpace ++ t).getLast?, isControlOrSpace c = false := by
    intro c hc
    refine hl c ?_
    rw [← List.takeWhile_append_dropWhile (p := isControlOrSpace) (l := f), List.append_assoc]
    exact List.mem_getLast?_append_of_mem_getLast? hc
  have hplain : t.filter (fun c => c ∉ ['\t', '\n', '\r']) = t := by
    rw [List.filter_eq_self]
    intro c hc
    obtain ⟨hb, -, -⟩ := pathChar_facts (ht.plain c hc)
    rw [decide_eq_true_iff]
    intro hm
    simp only [List.mem_cons, List.not_mem_nil, or_false] at hm
    rcases hm with rfl | rfl | rfl <;> cases hb
  rw [cleaned, String.toList_ofList, ht.dropWhile_append (by decide),
    dropTail_of_last hlast, List.filter_append, hplain]

lemma splitScheme_eq_some {cs name r : List Char} : splitScheme cs = some (name, r) ↔
    ∃ c w, cs.takeWhile isSchemeChar = c :: w ∧ cs.dropWhile isSchemeChar = ':' :: r ∧ c.isAlpha = true ∧
      name = (c :: w).map Char.toLower := by
  have hdrop : cs.drop (cs.takeWhile isSchemeChar).length = cs.dropWhile isSchemeChar := by
    have h : (cs.takeWhile isSchemeChar ++ cs.dropWhile isSchemeChar).drop
        (cs.takeWhile isSchemeChar).length = cs.dropWhile isSchemeChar := List.drop_left
    rwa [List.takeWhile_append_dropWhile] at h
  simp only [splitScheme, hdrop]
  constructor
  · intro h
    split at h
    · rename_i c w r' hw hr
      split_ifs at h with hc
      cases h
      exact ⟨c, w, hw, hr, hc, by rw [hw]⟩
    · cases h
  · rintro ⟨c, w, hw, hr, hc, rfl⟩
    simp only [hw, hr, if_pos hc]

lemma splitScheme_append {name r : List Char} (ht : Continues t) (h : splitScheme (f ++ t) = some (name, r)) :
    ∃ r₀, r = r₀ ++ t ∧ ∀ t', Continues t' → splitScheme (f ++ t') = some (name, r₀ ++ t') := by
  obtain ⟨c, w, hw, hr, hc, rfl⟩ := splitScheme_eq_some.mp h
  rw [ht.takeWhile_append (by decide)] at hw
  rw [ht.dropWhile_append (by decide)] at hr
  cases hd : f.dropWhile isSchemeChar with
  | nil =>
    rw [hd, List.nil_append] at hr
    cases ht.slash ':' (by rw [hr]; rfl)
  | cons x r₀ =>
    rw [hd, List.cons_append, List.cons.injEq] at hr
    obtain ⟨rfl, rfl⟩ := hr
    refine ⟨r₀, rfl, fun t' ht' => splitScheme_eq_some.mpr ⟨c, w, ?_, ?_, hc, rfl⟩⟩
    · rw [ht'.takeWhile_append (by decide), hw]
    · rw [ht'.dropWhile_append (by decide), hd, List.cons_append]

end Cleaning

section Parts

lemma dropWhile_ne_eq_nil {c : Char} {cs : List Char} : cs.dropWhile (· != c) = [] ↔ c ∉ cs := by
  rw [List.dropWhile_eq_nil_iff]
  constructor
  · intro h hc
    simpa using h c hc
  · rintro h x hx
    rw [bne_iff_ne]
    rintro rfl
    exact h hx

lemma takeWhile_ne_eq_self {c : Char} {cs : List Char} (h : c ∉ cs) : cs.takeWhile (· != c) = cs := by
  rw [List.takeWhile_eq_self_iff]
  intro x hx
  rw [bne_iff_ne]
  rintro rfl
  exact h hx

lemma notMem_of_dropWhile {p : Char → Bool} {c : Char} {cs : List Char} (hp : p c = false)
    (h : c ∉ cs.dropWhile p) : c ∉ cs := by
  rw [← List.takeWhile_append_dropWhile (p := p) (l := cs), List.mem_append]
  rintro (hc | hc)
  · cases hp.symm.trans (List.mem_takeWhile_imp hc)
  · exact h hc

lemma ofParts?_eq_some {scheme : String} {cs : List Char} {u : Url} (hq : u.query = none)
    (hf : u.fragment = none) :
    ofParts? scheme cs = some u ↔ '#' ∉ cs ∧ '?' ∉ cs ∧ u.scheme = scheme ∧
      authority? scheme ((cs.dropWhile isSlash).takeWhile (!endsAuthority ·)) = some (u.host, u.port) ∧
      u.path = normalPath ((cs.dropWhile isSlash).dropWhile (!endsAuthority ·)) := by
  have hsub : (cs.dropWhile isSlash).dropWhile (!endsAuthority ·) ⊆ cs :=
    fun c hc => (List.dropWhile_sublist _).mem ((List.dropWhile_sublist _).mem hc)
  simp only [ofParts?, List.span_eq_takeWhile_dropWhile, Option.bind_eq_bind, Option.bind_eq_some_iff]
  constructor
  · rintro ⟨⟨host, port⟩, ha, h⟩
    cases h
    simp only [ite_eq_left_iff, List.isEmpty_iff, reduceCtorEq, imp_false, not_not] at hq hf
    have hhash := dropWhile_ne_eq_nil.mp hf
    rw [takeWhile_ne_eq_self hhash] at hq ha
    have hmark := dropWhile_ne_eq_nil.mp hq
    refine ⟨hhash, ?_, rfl, ha, ?_⟩
    · exact notMem_of_dropWhile (p := isSlash) (by decide) (notMem_of_dropWhile (by decide) hmark)
    · simp only [takeWhile_ne_eq_self hhash, takeWhile_ne_eq_self hmark]
  · rintro ⟨hhash, hmark, hs, ha, hp⟩
    rw [takeWhile_ne_eq_self hhash]
    refine ⟨_, ha, ?_⟩
    have hrest : '?' ∉ (cs.dropWhile isSlash).dropWhile (!endsAuthority ·) := fun h => hmark (hsub h)
    rw [takeWhile_ne_eq_self hrest, dropWhile_ne_eq_nil.mpr hrest, dropWhile_ne_eq_nil.mpr hhash]
    cases u
    cases hs
    cases hp
    cases hq
    cases hf
    rfl

lemma scheme_ofParts? {scheme : String} {cs : List Char} {u : Url} (h : ofParts? scheme cs = some u) :
    u.scheme = scheme := by
  simp only [ofParts?, Option.bind_eq_bind, Option.bind_eq_some_iff] at h
  obtain ⟨⟨host, port⟩, -, h⟩ := h
  cases h
  rfl

lemma authority?_nil (scheme : String) : authority? scheme [] = none := by
  simp [authority?, afterLast]

lemma dropWhile_ne_nil_of_authority {scheme : String} {r₀ t : List Char} {a : String × Option Nat}
    (ht : ∀ c ∈ t, c = '/')
    (h : authority? scheme (((r₀ ++ t).dropWhile isSlash).takeWhile (!endsAuthority ·)) = some a) :
    r₀.dropWhile isSlash ≠ [] := by
  intro hnil
  have hall : (r₀ ++ t).dropWhile isSlash = [] := by
    rw [List.dropWhile_append, hnil, List.isEmpty_nil, if_pos rfl, List.dropWhile_eq_nil_iff]
    intro c hc
    rw [ht c hc]
    rfl
  rw [hall, List.takeWhile_nil, authority?_nil] at h
  cases h

def Rooted (p : List Char) : Prop := ∀ c ∈ p.head?, isSlash c = true

lemma rooted_dropWhile {cs : List Char} (hhash : '#' ∉ cs) (hmark : '?' ∉ cs) :
    Rooted (cs.dropWhile (!endsAuthority ·)) := by
  intro c hc
  have hmem : c ∈ cs := (List.dropWhile_sublist _).mem (List.mem_of_mem_head? hc)
  have hends := List.head?_dropWhile_not (!endsAuthority ·) cs
  rw [Option.mem_def.mp hc] at hends
  simp only [Bool.not_eq_false', endsAuthority, Bool.or_eq_true, beq_iff_eq] at hends
  rcases hends with (hs | rfl) | rfl
  · exact hs
  · exact absurd hmem hmark
  · exact absurd hmem hhash

lemma ofParts?_append {scheme : String} {r₀ t : List Char} {u : Url} (hq : u.query = none)
    (hf : u.fragment = none) (ht : ∀ c ∈ t, c = '/') (h : ofParts? scheme (r₀ ++ t) = some u) :
    ∃ p, Rooted p ∧ u.path = normalPath (p ++ t) ∧
      ∀ t', Continues t' → ofParts? scheme (r₀ ++ t') = some { u with path := normalPath (p ++ t') } := by
  obtain ⟨hhash, hmark, hs, ha, hp⟩ := (ofParts?_eq_some hq hf).mp h
  rw [List.mem_append, not_or] at hhash hmark
  -- a host is left in front of the slashes at the end, so what follows them belongs to the path
  have hhost := dropWhile_ne_nil_of_authority ht ha
  have hfront (v : List Char) : (r₀ ++ v).dropWhile isSlash = r₀.dropWhile isSlash ++ v := by
    rw [List.dropWhile_append, if_neg (by rwa [List.isEmpty_iff])]
  have hsub : r₀.dropWhile isSlash ⊆ r₀ := (List.dropWhile_sublist _).subset
  have htc := continues_slashes ht
  rw [hfront, htc.takeWhile_append (by decide)] at ha
  rw [hfront, htc.dropWhile_append (by decide)] at hp
  refine ⟨(r₀.dropWhile isSlash).dropWhile (!endsAuthority ·),
    rooted_dropWhile (fun hc => hhash.1 (hsub hc)) (fun hc => hmark.1 (hsub hc)), hp, fun t' ht' => ?_⟩
  let v : Url := { u with path := normalPath ((r₀.dropWhile isSlash).dropWhile (!endsAuthority ·) ++ t') }
  refine (ofParts?_eq_some (u := v) hq hf).mpr ⟨?_, ?_, hs, ?_, ?_⟩
  · rw [List.mem_append, not_or]
    exact ⟨hhash.1, ht'.notMem.1⟩
  · rw [List.mem_append, not_or]
    exact ⟨hmark.1, ht'.notMem.2⟩
  · rw [hfront, ht'.takeWhile_append (by decide), ha]
  · rw [hfront, ht'.dropWhile_append (by decide)]

end Parts

lemma parse_eq_ok {s : String} {u : Url} (hw : isWeb u.scheme = true) : parse s = .ok u ↔
    ∃ r, splitScheme (cleaned s) = some (u.scheme.toList, r) ∧ ofParts? u.scheme r = some u := by
  rw [parse]
  constructor
  · intro h
    split at h
    · cases h
    · rename_i scheme r hr
      dsimp only at h
      split at h
      · rename_i v hv
        split_ifs at h
        cases h
        have hs := scheme_ofParts? hv
        refine ⟨r, ?_, ?_⟩
        · rw [hr, hs, String.toList_ofList]
        · rw [hs, hv]
      · cases h
  · rintro ⟨r, hr, hu⟩
    simp only [hr, String.ofList_toList, hu, hw]
    rfl

lemma parse_append {s t : List Char} {u : Url} (h : parse (.ofList (s ++ t)) = .ok u)
    (hw : isWeb u.scheme = true) (hq : u.query = none) (hf : u.fragment = none)
    (ht : ∀ c ∈ t, c = '/') (hl : ∀ c ∈ (s ++ t).getLast?, isControlOrSpace c = false) :
    ∃ p, Rooted p ∧ u.path = normalPath (p ++ t) ∧ ∀ t', Continues t' → t' ≠ [] →
      parse (.ofList (s ++ t')) = .ok { u with path := normalPath (p ++ t') } := by
  obtain ⟨r, hr, hu⟩ := (parse_eq_ok hw).mp h
  rw [cleaned_append (continues_slashes ht) hl] at hr
  obtain ⟨r₀, rfl, hr'⟩ := splitScheme_append (continues_slashes ht) hr
  obtain ⟨p, hp, hpath, hu'⟩ := ofParts?_append hq hf ht hu
  refine ⟨p, hp, hpath, fun t' ht' hn => ?_⟩
  have hlast : ∀ c ∈ (s ++ t').getLast?, isControlOrSpace c = false := by
    intro c hc
    rw [List.getLast?_append_of_ne_nil _ hn] at hc
    exact (pathChar_facts (ht'.plain c (List.mem_of_mem_getLast? hc))).1
  have hscheme : splitScheme (cleaned (.ofList (s ++ t'))) = some (u.scheme.toList, r₀ ++ t') := by
    rw [cleaned_append ht' hlast, hr' t' ht']
  exact (parse_eq_ok (u := { u with path := normalPath (p ++ t') }) hw).mpr ⟨_, hscheme, hu' t' ht'⟩

section Paths

lemma splitSegments_ne_nil (cs : List Char) : splitSegments cs ≠ [] := by
  cases cs with
  | nil => exact List.cons_ne_nil _ _
  | cons c cs =>
    rw [splitSegments]
    split_ifs
    · exact List.cons_ne_nil _ _
    · split <;> exact List.cons_ne_nil _ _

lemma splitSegments_cons {c : Char} (hc : isSlash c = false) {cs s : List Char} {ss : List (List Char)}
    (h : splitSegments cs = s :: ss) : splitSegments (c :: cs) = (c :: s) :: ss := by
  rw [splitSegments, hc, h]
  rfl

lemma splitSegments_append (a b : List Char) :
    splitSegments (a ++ '/' :: b) = splitSegments a ++ splitSegments b := by
  induction a with
  | nil => rfl
  | cons c a ih =>
    cases hc : isSlash c with
    | true => rw [List.cons_append, splitSegments, splitSegments, hc, if_pos rfl,
      if_pos rfl, ih, List.cons_append]
    | false =>
      obtain ⟨s, ss, hs⟩ := List.exists_cons_of_ne_nil (splitSegments_ne_nil a)
      rw [hs, List.cons_append] at ih
      rw [List.cons_append, splitSegments_cons hc ih, splitSegments_cons hc hs, List.cons_append]

lemma flatMap_splitSegments {t : List Char} (h : '\\' ∉ t) :
    (splitSegments t).flatMap ('/' :: ·) = '/' :: t := by
  induction t with
  | nil => rfl
  | cons c t ih =>
    rw [List.mem_cons, not_or] at h
    have ih := ih h.2
    cases hc : isSlash c with
    | true =>
      have hslash : c = '/' := by
        simp only [isSlash, Bool.or_eq_true, beq_iff_eq] at hc
        exact hc.resolve_right fun hb => h.1 hb.symm
      rw [splitSegments, hc, if_pos rfl, List.flatMap_cons, ih, hslash]
      rfl
    | false =>
      obtain ⟨s, ss, hs⟩ := List.exists_cons_of_ne_nil (splitSegments_ne_nil t)
      rw [hs, List.flatMap_cons, List.cons_append, List.cons_inj_right] at ih
      rw [splitSegments_cons hc hs, List.flatMap_cons, List.cons_append, List.cons_append, ih]

def Settled (ss : List (List Char)) : Prop :=
  ∀ s ∈ ss, isHere s = false ∧ isUp s = false ∧ escape isPathChar s = s

instance (ss : List (List Char)) : Decidable (Settled ss) := inferInstanceAs (Decidable (∀ s ∈ ss, _))

def step (done : List (List Char)) (s : List Char) : List (List Char) :=
  if isHere s then done else if isUp s then done.tail else s :: done

def walk (done ss : List (List Char)) : List (List Char) := ss.foldl step done

variable {ss : List (List Char)}

lemma resolve_cons (h : ss ≠ []) (done : List (List Char)) (s : List Char) :
    resolve done (s :: ss) = resolve (step done s) ss := by
  obtain ⟨x, xs, rfl⟩ := List.exists_cons_of_ne_nil h
  rw [resolve, step]
  · split_ifs <;> rfl
  · exact List.cons_ne_nil _ _

lemma resolve_append (h : ss ≠ []) (done S : List (List Char)) :
    resolve done (S ++ ss) = resolve (walk done S) ss := by
  induction S generalizing done with
  | nil => rfl
  | cons s S ih =>
    rw [List.cons_append, resolve_cons (List.append_ne_nil_of_right_ne_nil S h),
      ih, walk, walk, List.foldl_cons]

lemma resolve_settled (h : Settled ss) (done : List (List Char)) : resolve done ss = done.reverse ++ ss := by
  induction ss generalizing done with
  | nil => rw [resolve, List.append_nil]
  | cons s ss ih =>
    obtain ⟨⟨hhere, hup, -⟩, hss⟩ := List.forall_mem_cons.mp h
    cases ss with
    | nil => simp [resolve, hhere, hup]
    | cons x xs =>
      rw [resolve_cons (List.cons_ne_nil x xs), ih hss, step, hhere, hup]
      simp

lemma resolve_self (done S : List (List Char)) :
    resolve done S = (walk done S).reverse ∨ resolve done S = (walk done S).reverse ++ [[]] := by
  induction S generalizing done with
  | nil => exact .inl rfl
  | cons s S ih =>
    cases S with
    | nil =>
      simp only [resolve, walk, List.foldl_cons, List.foldl_nil, step]
      split_ifs <;> simp
    | cons x xs =>
      rw [resolve_cons (List.cons_ne_nil x xs), walk, List.foldl_cons]
      exact ih (step done s)

def stem : List Char → List (List Char)
  | [] => []
  | _ :: r => splitSegments r

/-- A path without the slash that it may end in. -/
def front (p : List Char) : List Char :=
  (walk [] ((stem p).map (escape isPathChar))).reverse.flatMap ('/' :: ·)

variable {p t : List Char}

lemma normalPath_eq (hp : Rooted p) (hn : p ≠ []) :
    normalPath p = (resolve [] ((stem p).map (escape isPathChar))).flatMap ('/' :: ·) := by
  cases p with
  | nil => exact absurd rfl hn
  | cons c r =>
    have hc := hp c rfl
    simp only [normalPath, hc, if_true, stem]

lemma stem_append (p t : List Char) : stem (p ++ '/' :: t) = stem p ++ splitSegments t := by
  cases p with
  | nil => rfl
  | cons c r => exact splitSegments_append r t

lemma map_settled (h : Settled ss) : ss.map (escape isPathChar) = ss := by
  conv_rhs => rw [← List.map_id ss]
  exact List.map_congr_left fun s hs => (h s hs).2.2

lemma normalPath_append (hp : Rooted p) (ht : Settled (splitSegments t)) (hb : '\\' ∉ t) :
    normalPath (p ++ '/' :: t) = front p ++ '/' :: t := by
  have hrooted : Rooted (p ++ '/' :: t) := by
    intro c hc
    cases p with
    | nil =>
      cases hc
      rfl
    | cons d p => exact hp c hc
  rw [normalPath_eq hrooted (by simp), stem_append, List.map_append, map_settled ht,
    resolve_append (splitSegments_ne_nil t), resolve_settled ht, List.flatMap_append,
    flatMap_splitSegments hb, front]

lemma normalPath_self (hp : Rooted p) : normalPath p = front p ∨ normalPath p = front p ++ ['/'] := by
  cases p with
  | nil => exact .inr rfl
  | cons c r =>
    rw [normalPath_eq hp (List.cons_ne_nil c r), front]
    rcases resolve_self [] ((stem (c :: r)).map (escape isPathChar)) with h | h
    · rw [h]
      exact .inl rfl
    · rw [h, List.flatMap_append]
      exact .inr rfl

lemma settled_slashes (h : ∀ c ∈ t, c = '/') : Settled (splitSegments t) := by
  induction t with
  | nil => exact List.forall_mem_singleton.mpr ⟨by decide, by decide, rfl⟩
  | cons c t ih =>
    obtain ⟨rfl, ht⟩ := List.forall_mem_cons.mp h
    exact List.forall_mem_cons.mpr ⟨⟨by decide, by decide, rfl⟩, ih ht⟩

lemma exists_normalPath_slashes (hp : Rooted p) (ht : ∀ c ∈ t, c = '/') :
    ∃ ws, (∀ c ∈ ws, c = '/') ∧ normalPath (p ++ t) = front p ++ ws := by
  cases t with
  | nil =>
    rw [List.append_nil]
    rcases normalPath_self hp with h | h
    · exact ⟨[], List.forall_mem_nil _, by rw [h, List.append_nil]⟩
    · exact ⟨['/'], List.forall_mem_singleton.mpr rfl, h⟩
  | cons c t =>
    obtain ⟨rfl, ht'⟩ := List.forall_mem_cons.mp ht
    have hb : '\\' ∉ t := by
      intro hm
      cases ht' _ hm
    exact ⟨'/' :: t, ht, normalPath_append hp (settled_slashes ht') hb⟩

lemma notMem_escape (cs : List Char) : '?' ∉ escape isPathChar cs := by
  intro hm
  obtain ⟨c, -, hc⟩ := List.mem_flatMap.mp hm
  split_ifs at hc with hplain
  · cases List.mem_singleton.mp hc
    cases hplain
  · obtain ⟨b, -, hb⟩ := List.mem_flatMap.mp hc
    have hlt := b.toNat_lt
    simp only [escaped, Hex.upper, List.mem_cons, List.not_mem_nil, or_false] at hb
    rcases hb with hb | hb | hb
    · cases hb
    · exact Hex.upperDigit_ne _ (by omega) hb.symm
    · exact Hex.upperDigit_ne _ (by omega) hb.symm

lemma mem_walk {done : List (List Char)} {s : List Char} (h : s ∈ walk done ss) : s ∈ done ∨ s ∈ ss := by
  induction ss generalizing done with
  | nil => exact .inl h
  | cons x ss ih =>
    rcases ih (show s ∈ walk (step done x) ss from h) with hs | hs
    · rw [step] at hs
      split_ifs at hs
      · exact .inl hs
      · exact .inl (List.mem_of_mem_tail hs)
      · exact (List.mem_cons.mp hs).elim (fun hx => .inr (hx ▸ List.mem_cons_self)) .inl
    · exact .inr (List.mem_cons_of_mem x hs)

lemma notMem_front (p : List Char) : '?' ∉ front p := by
  intro hm
  obtain ⟨s, hs, hc⟩ := List.mem_flatMap.mp hm
  rcases List.mem_cons.mp hc with hc | hc
  · cases hc
  rcases mem_walk (List.mem_reverse.mp hs) with hs | hs
  · cases hs
  · obtain ⟨x, -, rfl⟩ := List.mem_map.mp hs
    exact notMem_escape x hc

end Paths

/-- An address that others are built on: one of the web, without query and fragment. It does not end
in a space or a control character, which is dropped at the end but not before what follows. -/
structure IsBase (base : String) (u : Url) : Prop where
  parsed : parse base = .ok u
  web : isWeb u.scheme = true
  query : u.query = none
  fragment : u.fragment = none
  last : ∀ c ∈ base.toList.getLast?, isControlOrSpace c = false

/-- What a base goes on with after a slash follows its own path, whatever number of slashes that
ends in. -/
theorem IsBase.exists_front {base : String} {u : Url} (h : IsBase base u) {s ws : List Char}
    (hs : base.toList = s ++ ws) (hws : ∀ c ∈ ws, c = '/') :
    ∃ front slashes, '?' ∉ front ∧ (∀ c ∈ slashes, c = '/') ∧ u.path = front ++ slashes ∧
      ∀ t, Settled (splitSegments t) → '\\' ∉ t → Continues ('/' :: t) →
        parse (.ofList (s ++ '/' :: t)) = .ok { u with path := front ++ '/' :: t } := by
  have hparsed : parse (.ofList (s ++ ws)) = .ok u := by
    rw [← hs, String.ofList_toList, h.parsed]
  obtain ⟨p, hp, hpath, hgoes⟩ := parse_append hparsed h.web h.query h.fragment hws (hs ▸ h.last)
  obtain ⟨slashes, hslashes, hnormal⟩ := exists_normalPath_slashes hp hws
  refine ⟨front p, slashes, notMem_front p, hslashes, hpath.trans hnormal, fun t ht hb hc => ?_⟩
  rw [hgoes _ hc (List.cons_ne_nil _ _), normalPath_append hp ht hb]

/-- A host that a space follows is read without it, but cannot be followed by a path. -/
example : parse "http://dks " = .ok ⟨"http", "dks", none, ['/'], none, none⟩ ∧
    parse "http://dks /datakey" = .error .malformed := ⟨rfl, rfl⟩

end DumpImport.Web.Url
