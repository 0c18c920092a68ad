import DumpImport.Proofs.Time.Printed
import DumpImport.Proofs.Time.Reader
import Mathlib.Data.List.DropRight

/-! A date is read no further than it goes, so that a date without a zone is one in UTC. -/

namespace DumpImport.Time

open Text

section Cuts

variable {α β : Type}

def Ends (r : List Char) : Prop := ∀ c s, r = c :: s → c.isDigit = false ∧ c ≠ '.'

def Follows (r s : List Char) : Prop := s.head? = r.head? ∨ Ends s

def Firm (u : List Char) : Prop := ∀ c ∈ u.getLast?, isBlank c = false

/-- What was read ends firmly, and is read again whatever comes instead of the rest, if that begins
like the rest or ends the text read. -/
def Reader.Cuts (read : Reader α) : Prop :=
  ∀ ⦃cs a r⦄, read cs = some (a, r) →
    ∃ u, cs = u ++ r ∧ Firm u ∧ ∀ s, Follows r s → read (u ++ s) = some (a, s)

def Reader.andThen (read : Reader α) (next : α → Reader β) : Reader β := fun cs =>
  (read cs).bind fun x => next x.1 x.2

lemma ends_nil : Ends [] := fun _ _ h => nomatch h

lemma Follows.append {u r s : List Char} (h : Follows r s) : Follows (u ++ r) (u ++ s) := by
  cases u with
  | nil => exact h
  | cons c u => exact .inl rfl

lemma Follows.cons_inv {c : Char} {r s : List Char} (h : Follows r (c :: s)) :
    (∃ t, r = c :: t) ∨ c.isDigit = false ∧ c ≠ '.' := by
  rcases h with h | h
  · cases r with
    | nil => cases h
    | cons d t =>
      cases h
      exact .inl ⟨t, rfl⟩
  · exact .inr (h c s rfl)

lemma Firm.append {u v : List Char} (hu : Firm u) (hv : Firm v) : Firm (u ++ v) := by
  intro c hc
  rw [List.getLast?_append] at hc
  cases hl : v.getLast? with
  | none =>
    rw [hl] at hc
    exact hu c hc
  | some d =>
    rw [hl] at hc
    cases hc
    exact hv _ hl

lemma Firm.cons {c : Char} {u : List Char} (hc : isBlank c = false) (hu : Firm u) : Firm (c :: u) := by
  have h : Firm [c] := by
    rintro _ ⟨⟩
    exact hc
  exact h.append hu

lemma Firm.append_of_ne_nil (u : List Char) {v : List Char} (hv : Firm v) (hn : v ≠ []) : Firm (u ++ v) := by
  intro c hc
  rw [List.getLast?_append, List.getLast?_eq_some_getLast hn, Option.some_or] at hc
  exact hv c (List.getLast?_eq_some_getLast hn ▸ hc)

lemma Reader.Cuts.andThen {read : Reader α} {next : α → Reader β} (h : read.Cuts) (hn : ∀ a, (next a).Cuts) :
    (read.andThen next).Cuts := by
  intro cs b r hr
  obtain ⟨⟨a, r'⟩, ha, hb⟩ := Option.bind_eq_some_iff.mp hr
  obtain ⟨u, rfl, hu, hread⟩ := h ha
  obtain ⟨v, rfl, hv, hnext⟩ := hn a hb
  refine ⟨u ++ v, (List.append_assoc u v r).symm, hu.append hv, fun s hs => ?_⟩
  rw [List.append_assoc, Reader.andThen, hread (v ++ s) hs.append]
  exact hnext s hs

lemma Reader.Cuts.map {read : Reader α} (h : read.Cuts) (f : α → β) :
    Reader.Cuts fun cs => (read cs).map fun (a, r) => (f a, r) := by
  intro cs b r hr
  obtain ⟨⟨a, r'⟩, ha, he⟩ := Option.map_eq_some_iff.mp hr
  cases he
  obtain ⟨u, hcs, hu, hread⟩ := h ha
  refine ⟨u, hcs, hu, fun s hs => ?_⟩
  simp only [hread s hs, Option.map_some]

lemma Reader.cuts_pure {p : Prop} [Decidable p] (a : α) :
    Reader.Cuts fun cs => if p then some (a, cs) else none := by
  intro cs b r h
  obtain ⟨hp, he⟩ := Option.ite_none_right_eq_some.mp h
  cases he
  exact ⟨[], rfl, fun _ hc => (nomatch hc), fun s _ => if_pos hp⟩

lemma Reader.Cuts.afterBlank {read : Reader α} (h : read.Cuts) (hn : read [] = none) :
    Reader.Cuts fun cs => read (dropBlank cs) := by
  intro cs a r hr
  obtain ⟨u, hcs, hu, hread⟩ := h hr
  cases u with
  | nil => cases hn.symm.trans (hread [] (.inr ends_nil))
  | cons c u =>
    have hb : isBlank c = false := by
      have hd := List.head?_dropWhile_not isBlank cs
      rw [← dropBlank, hcs] at hd
      exact hd
    refine ⟨cs.takeWhile isBlank ++ c :: u, ?_, hu.append_of_ne_nil _ (List.cons_ne_nil c u), fun s hs => ?_⟩
    · rw [List.append_assoc, ← hcs, dropBlank, List.takeWhile_append_dropWhile]
    · have hw : ∀ d ∈ cs.takeWhile isBlank, isBlank d = true :=
        fun d hd => List.all_eq_true.mp List.all_takeWhile d hd
      simp only [List.append_assoc, dropBlank_blank_append hw]
      rw [dropBlank, List.cons_append, List.dropWhile_cons_of_neg (by simp [hb])]
      exact hread s hs

end Cuts

section Numbers

variable {r s : List Char}

lemma Follows.stops (h : Follows r s) (hr : Stops r) : Stops s := by
  rintro c t rfl
  rcases h.cons_inv with ⟨u, rfl⟩ | hc
  · exact hr c u rfl
  · exact hc.1

lemma isBlank_of_isDigit {c : Char} (h : c.isDigit = true) : isBlank c = false := by
  have := isDigit_bounds h
  simp [isBlank]
  omega

lemma firm_digits {ds : List Char} (h : ∀ c ∈ ds, c.isDigit = true) : Firm ds :=
  fun c hc => isBlank_of_isDigit (h c (List.mem_of_getLast? hc))

lemma stops_dropWhile (cs : List Char) : Stops (cs.dropWhile isDigit) := by
  intro c t h
  have hd := List.head?_dropWhile_not isDigit cs
  rw [h] at hd
  rw [← isDigit_eq]
  exact hd

lemma digits_stops {bound : Option Nat} {ds : List Char} (hd : IsDigits ds) (hs : Stops s)
    (hle : ∀ n ∈ bound, ds.length ≤ n) : digits bound (ds ++ s) = some (ds, s) := by
  cases bound with
  | none => exact digits_none hd hs
  | some n =>
    have ht : s.takeWhile isDigit = [] := by
      cases s with
      | nil => rfl
      | cons c t => simp [isDigit_eq, hs c t rfl]
    simp [digits, takeWhile_digits hd.2, ht, List.take_of_length_le (hle n rfl), hd.1]

lemma digits_eq_some {bound : Option Nat} {cs ds : List Char} (h : digits bound cs = some (ds, r)) :
    cs = ds ++ r ∧ IsDigits ds ∧ (∀ n ∈ bound, ds.length ≤ n) ∧ (Stops r ∨ bound = some ds.length) := by
  have hall : ∀ c ∈ ds, c.isDigit = true := digits_isDigit h
  obtain ⟨w, x, rfl, hw, hx⟩ : ∃ w x, cs = w ++ x ∧ cs.takeWhile isDigit = w ∧ Stops x :=
    ⟨_, _, List.takeWhile_append_dropWhile.symm, rfl, stops_dropWhile cs⟩
  cases bound with
  | none =>
    simp only [digits, hw] at h
    split_ifs at h with hn
    cases h
    rw [List.drop_left]
    exact ⟨rfl, ⟨by simpa using hn, hall⟩, by rintro n ⟨⟩, .inl hx⟩
  | some n =>
    simp only [digits, hw] at h
    split_ifs at h with hn
    cases h
    have hp : w.take n <+: w ++ x := (List.take_prefix n w).trans (List.prefix_append w x)
    refine ⟨(List.prefix_iff_eq_append.mp hp).symm, ⟨fun he => hn (by rw [he]; rfl), hall⟩, ?_, ?_⟩
    · rintro _ ⟨⟩
      exact List.length_take_le n w
    · rcases Nat.le_total n w.length with hl | hl
      · exact .inr (by rw [List.length_take_of_le hl])
      · rw [List.take_of_length_le hl, List.drop_left]
        exact .inl hx

lemma digits_cuts (bound : Option Nat) : (digits bound).Cuts := by
  intro cs ds r h
  obtain ⟨rfl, hd, hle, hr⟩ := digits_eq_some h
  refine ⟨ds, rfl, firm_digits hd.2, fun s hs => ?_⟩
  rcases hr with hr | rfl
  · exact digits_stops hd (hs.stops hr) hle
  · exact digits_some hd s

lemma numeral_cuts (bound : Option Nat) : (numeral bound).Cuts := (digits_cuts bound).map decimalValue

lemma numeralIn_cuts (lo hi : Nat) : (numeralIn lo hi).Cuts := by
  have h := (numeral_cuts (some 2)).afterBlank rfl
  exact h.andThen fun n => Reader.cuts_pure (p := lo ≤ n ∧ n ≤ hi) n

lemma mark_cuts {c : Char} (h : isBlank c = false) : (mark c).Cuts := fun _ _ _ hm =>
  ⟨[c], mark_cons hm, .cons h fun _ hd => (nomatch hd), fun s _ => mark_self c s⟩

lemma fraction_cuts : fraction.Cuts := by
  intro cs n r h
  unfold fraction at h
  split at h
  · obtain ⟨u, rfl, hu, hread⟩ :=
      (digits_cuts none).map (fun ds => decimalValue ((ds.take 9).rightpad 9 '0')) h
    exact ⟨'.' :: u, rfl, .cons (by decide) hu, hread⟩
  · rename_i hp
    cases h
    refine ⟨[], rfl, fun _ hc => (nomatch hc), fun s hs => ?_⟩
    change fraction s = some (0, s)
    unfold fraction
    split
    · rcases hs.cons_inv with ⟨t, rfl⟩ | hc
      · exact absurd rfl (hp t)
      · exact absurd rfl hc.2
    · rfl

def signedYear : Reader Int := fun cs =>
  match cs with
  | '-' :: r => (numeral none r).map fun (n, r) => (-n, r)
  | '+' :: r => (numeral none r).map fun (n, r) => ((n : Int), r)
  | cs => (numeral (some 4) cs).map fun (n, r) => ((n : Int), r)

lemma year_eq : year = fun cs => signedYear (dropBlank cs) := rfl

lemma signedYear_cuts : signedYear.Cuts := by
  intro cs y r h
  unfold signedYear at h
  split at h
  · obtain ⟨u, rfl, hu, hread⟩ := (numeral_cuts none).map (fun n => -(n : Int)) h
    exact ⟨'-' :: u, rfl, .cons (by decide) hu, hread⟩
  · obtain ⟨u, rfl, hu, hread⟩ := (numeral_cuts none).map Int.ofNat h
    exact ⟨'+' :: u, rfl, .cons (by decide) hu, hread⟩
  · rename_i hm hp
    obtain ⟨u, rfl, hu, hread⟩ := (numeral_cuts (some 4)).map Int.ofNat h
    refine ⟨u, rfl, hu, fun s hs => ?_⟩
    cases u with
    | nil => cases hread [] (.inr ends_nil)
    | cons c u =>
      unfold signedYear
      split
      · rename_i he
        cases he
        exact absurd rfl (hm _)
      · rename_i he
        cases he
        exact absurd rfl (hp _)
      · exact hread s hs

lemma year_cuts : year.Cuts := signedYear_cuts.afterBlank rfl

lemma moment_eq :
    moment = (year.andThen fun y => (mark '-').andThen fun _ => (numeralIn 1 12).andThen fun m =>
    (mark '-').andThen fun _ => (numeralIn 1 31).andThen fun d => (mark 'T').andThen fun _ =>
    (numeralIn 0 23).andThen fun hour => (mark ':').andThen fun _ => (numeralIn 0 59).andThen fun minute =>
    (mark ':').andThen fun _ => (numeralIn 0 60).andThen fun second => fraction.andThen fun nanos cs =>
      if firstYear ≤ y ∧ y ≤ lastYear ∧ Date.Valid ⟨y, m, d⟩ then
        some (Date.at ⟨y, m, d⟩ hour minute second nanos, cs) else none) := rfl

lemma moment_cuts : moment.Cuts := by
  rw [moment_eq]
  exact year_cuts.andThen fun y => (mark_cuts (by decide)).andThen fun _ =>
    (numeralIn_cuts 1 12).andThen fun m =>
    (mark_cuts (by decide)).andThen fun _ => (numeralIn_cuts 1 31).andThen fun d =>
    (mark_cuts (by decide)).andThen fun _ => (numeralIn_cuts 0 23).andThen fun hour =>
    (mark_cuts (by decide)).andThen fun _ => (numeralIn_cuts 0 59).andThen fun minute =>
    (mark_cuts (by decide)).andThen fun _ => (numeralIn_cuts 0 60).andThen fun second =>
    fraction_cuts.andThen fun nanos => Reader.cuts_pure _

end Numbers

section Zones

variable {cs : List Char} {s : String} {t : Instant}

lemma moment_dropBlank (cs : List Char) : moment (dropBlank cs) = moment cs := by
  have hy : year (dropBlank cs) = year cs := by
    rw [year_eq]
    simp only [dropBlank, List.dropWhile_idempotent]
  rw [moment_eq, Reader.andThen, hy]
  rfl

lemma moment_append_utc : moment (cs ++ ['Z']) = some (t, ['Z']) ↔ moment cs = some (t, []) := by
  constructor
  · intro h
    obtain ⟨u, hcs, -, hread⟩ := moment_cuts h
    obtain rfl := List.append_cancel_right hcs
    simpa using hread [] (.inr ends_nil)
  · intro h
    obtain ⟨u, hcs, -, hread⟩ := moment_cuts h
    rw [List.append_nil] at hcs
    subst hcs
    exact hread ['Z'] (.inr fun c s he => by cases he; decide)

lemma moment_last (h : moment cs = some (t, [])) : ∃ u c, cs = u ++ [c] ∧ isBlank c = false := by
  obtain ⟨u, hcs, hu, -⟩ := moment_cuts h
  rw [List.append_nil] at hcs
  subst hcs
  rcases List.eq_nil_or_concat cs with rfl | ⟨u, c, rfl⟩
  · cases h
  · exact ⟨u, c, List.concat_eq_append .., hu c (by simp)⟩

lemma twoDigits_eq_some {n : Nat} {r : List Char} (h : twoDigits cs = some (n, r)) :
    ∃ c d, cs = c :: d :: r ∧ c.isDigit = true ∧ d.isDigit = true := by
  unfold twoDigits at h
  split at h
  · rename_i c d r'
    obtain ⟨hd, he⟩ := Option.ite_none_right_eq_some.mp h
    cases he
    rw [isDigit_eq, isDigit_eq] at hd
    exact ⟨c, d, rfl, hd.1, hd.2⟩
  · cases h

def unsignedOffset (negative : Bool) : Reader Int :=
  twoDigits.andThen fun hours =>
    Reader.andThen (fun cs => twoDigits (cs.dropWhile isSeparator)) fun minutes cs =>
    if minutes ≤ 59 then
      let n : Int := hours * 3600 + minutes * 60
      some (if negative then -n else n, cs)
    else none

lemma unsignedOffset_last {negative : Bool} {o : Int} (h : unsignedOffset negative cs = some (o, [])) :
    ∃ v d, cs = v ++ [d] ∧ d.isDigit = true := by
  obtain ⟨⟨hours, c₁⟩, hhours, h⟩ := Option.bind_eq_some_iff.mp h
  obtain ⟨⟨minutes, c₂⟩, hminutes, h⟩ := Option.bind_eq_some_iff.mp h
  obtain ⟨-, he⟩ := Option.ite_none_right_eq_some.mp h
  cases he
  obtain ⟨a, b, rfl, -⟩ := twoDigits_eq_some hhours
  obtain ⟨c, d, hcd, -, hd⟩ := twoDigits_eq_some hminutes
  obtain ⟨w, rfl⟩ : [c, d] <:+ c₁ := hcd ▸ List.dropWhile_suffix isSeparator
  exact ⟨a :: b :: (w ++ [c]), d, by simp, hd⟩

lemma offset_last {o : Int} (h : offset cs = some (o, [])) : ∃ v d, cs = v ++ [d] ∧ d.isDigit = true := by
  have hsign {c : Char} {r : List Char} {negative : Bool} (hc : dropBlank cs = c :: r)
      (hr : unsignedOffset negative r = some (o, [])) : ∃ v d, cs = v ++ [d] ∧ d.isDigit = true := by
    obtain ⟨v, d, rfl, hd⟩ := unsignedOffset_last hr
    obtain ⟨w, rfl⟩ : c :: (v ++ [d]) <:+ cs := hc ▸ List.dropWhile_suffix isBlank
    exact ⟨w ++ c :: v, d, by simp, hd⟩
  unfold offset at h
  split at h
  · exact hsign ‹_› h
  · exact hsign ‹_› h
  · exact hsign ‹_› h
  · cases h

lemma last_eq {u v : List Char} {c d : Char} (h : u ++ [c] = v ++ [d]) : c = d :=
  List.singleton_inj.mp (List.append_inj' h rfl).2

lemma readAs_cons {m : Instant} {r : List Char}
    (h : moment s.toList = some (m, r)) (z : Zone) (zones : List Zone) :
    readAs (z :: zones) s = (z.read m r).or (readAs zones s) := by
  rw [readAs, readAs, h]
  simp only [Option.bind_eq_bind, Option.bind_some, List.findSome?_cons]
  cases z.read m r <;> rfl

lemma readAs_nil : readAs [] s = none := by
  rw [readAs]
  cases moment s.toList <;> rfl

lemma read_eq_some {m : Instant} {r : List Char} (h : moment s.toList = some (m, r)) : read s = some t ↔
    r = ['Z'] ∧ m = t ∨ (∃ v d, r = v ++ [d] ∧ d.isDigit = true) ∧ Zone.offset.read m r = some t := by
  have ho : Zone.offset.read m r = some t → ∃ v d, r = v ++ [d] ∧ d.isDigit = true := by
    intro h
    obtain ⟨⟨o, r⟩, ho, h⟩ := Option.bind_eq_some_iff.mp h
    obtain ⟨⟨rfl, -⟩, -⟩ := Option.ite_none_right_eq_some.mp h
    exact offset_last ho
  rw [read, readAs_cons h, readAs_cons h, readAs_nil, Option.or_none, Option.or_eq_some_iff, Zone.read]
  split_ifs with hz
  · subst hz
    -- an offset ends in a digit, so this is none
    have hd : ¬ ∃ v d, ['Z'] = v ++ [d] ∧ d.isDigit = true := by
      rintro ⟨v, d, hr, hd⟩
      rw [← last_eq (u := []) hr] at hd
      exact absurd hd (by decide)
    simp only [hd, Option.some.injEq, true_and, false_and]
  · simp only [hz, false_and, false_or, true_and]
    exact ⟨fun h => ⟨ho h, h⟩, And.right⟩

lemma read_append_utc : read (s ++ "Z") = some t ↔ moment s.toList = some (t, []) := by
  have hz : (s ++ "Z").toList = s.toList ++ ['Z'] := by simp
  constructor
  · intro h
    obtain ⟨⟨m, r⟩, hm, -⟩ := Option.bind_eq_some_iff.mp h
    rcases (read_eq_some hm).mp h with ⟨rfl, rfl⟩ | ⟨⟨v, d, rfl, hd⟩, -⟩
    · exact moment_append_utc.mp (hz ▸ hm)
    · obtain ⟨u, hcs, -⟩ := moment_cuts hm
      rw [hz, ← List.append_assoc] at hcs
      rw [← last_eq hcs] at hd
      exact absurd hd (by decide)
  · intro h
    have hm := moment_append_utc.mpr h
    rw [← hz] at hm
    exact (read_eq_some hm).mpr (.inl ⟨rfl, rfl⟩)

lemma readAs_eq_some : readAs [.none, .utc, .offset] s = some t ↔
    read s = some t ∨ read (s ++ "Z") = some t := by
  rw [read_append_utc]
  cases hm : moment s.toList with
  | none => simp [hm, read, readAs]
  | some x =>
    obtain ⟨m, r⟩ := x
    rw [readAs_cons hm, ← read, Option.or_eq_some_iff, Zone.read]
    split_ifs with hr
    · subst hr
      have hn : read s ≠ some t := fun h => by
        rcases (read_eq_some hm).mp h with ⟨hz, -⟩ | ⟨⟨v, d, hz, -⟩, -⟩
        · cases hz
        · exact List.append_ne_nil_of_right_ne_nil v (List.cons_ne_nil d []) hz.symm
      simp [hn]
    · simp [hr]

lemma read_dropBlank (s : String) : read (String.ofList (dropBlank s.toList)) = read s := by
  simp only [read, readAs, String.toList_ofList, moment_dropBlank]

lemma read_last (h : read s = some t) : ∃ u c, s.toList = u ++ [c] ∧ isBlank c = false := by
  obtain ⟨⟨m, r⟩, hm, -⟩ := Option.bind_eq_some_iff.mp h
  obtain ⟨u, hcs, -⟩ := moment_cuts hm
  rcases (read_eq_some hm).mp h with ⟨rfl, -⟩ | ⟨⟨v, d, rfl, hd⟩, -⟩
  · exact ⟨u, 'Z', hcs, by decide⟩
  · exact ⟨u ++ v, d, by rw [hcs, List.append_assoc], isBlank_of_isDigit hd⟩

end Zones

end DumpImport.Time
