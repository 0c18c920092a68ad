import DumpImport.Proofs.KeyService.Attempts

namespace DumpImport.KeyService

inductive Call where
  | issue
  | decrypt (keyId wrapped : String)
  | clear
deriving DecidableEq

inductive Result where
  | issued (r : Except Error DataKey)
  | opened (r : Except Error String)
  | cleared

structure Turn where
  call : Call
  result : Result
  exchanges : List Exchange
  before : Cache
  after : Cache

/-- The turns are kept last first. -/
structure Book where
  session : Session
  turns : List Turn

namespace Surroundings

variable (x : Surroundings)

def call : Call → StateM Session Result
  | .issue => .issued <$> x.service.issue
  | .decrypt keyId wrapped => .opened <$> x.service.decrypt keyId wrapped
  | .clear => (fun _ => .cleared) <$> x.service.clear

def turn (s : Session) (c : Call) : Turn × Session :=
  let (r, s') := x.call c { s with exchanges := [] }
  (⟨c, r, s'.exchanges, s.cache, s'.cache⟩, s')

def enter (b : Book) (c : Call) : Book :=
  let (t, s) := x.turn b.session c
  ⟨s, t :: b.turns⟩

def book (cs : List Call) : Book := cs.foldl x.enter ⟨⟨.empty, 0, 0, []⟩, []⟩

end Surroundings

inductive Lawful (base : String) : Turn → Prop where
  | issue {r es c c'} (done : (Purpose.issue base).Done c es r c') :
      Lawful base ⟨.issue, .issued r, es, c, c'⟩
  | known {keyId wrapped plaintext c} (known : c.get? wrapped keyId = some plaintext) :
      Lawful base ⟨.decrypt keyId wrapped, .opened (.ok plaintext), [], c, c⟩
  | missed {keyId wrapped r es c c'} (missed : c.get? wrapped keyId = none)
      (done : (Purpose.open base keyId wrapped).Done c es r c') :
      Lawful base ⟨.decrypt keyId wrapped, .opened r, es, c, c'⟩
  | clear {c} : Lawful base ⟨.clear, .cleared, [], c, .empty⟩

def openings (keyId wrapped : String) (ts : List Turn) : List String :=
  ((ts.takeWhile (·.call ≠ .clear)).filter (·.call = .decrypt keyId wrapped)).flatMap fun t =>
    t.exchanges.filterMap fun e => opened? e.reply

section Openings

variable {keyId wrapped : String} {t : Turn} {ts : List Turn}

lemma openings_clear (h : t.call = .clear) : openings keyId wrapped (t :: ts) = [] := by
  simp [openings, h]

lemma openings_own (h : t.call = .decrypt keyId wrapped) :
    openings keyId wrapped (t :: ts) =
      t.exchanges.filterMap (fun e => opened? e.reply) ++ openings keyId wrapped ts := by
  simp [openings, h]

lemma openings_other (hc : t.call ≠ .clear) (h : t.call ≠ .decrypt keyId wrapped) :
    openings keyId wrapped (t :: ts) = openings keyId wrapped ts := by
  simp [openings, hc, h]

def Recorded (c : Cache) (ts : List Turn) : Prop :=
  ∀ keyId wrapped, openings keyId wrapped ts = (c.get? wrapped keyId).toList

lemma Lawful.recorded {base : String} (h : Lawful base t) (hr : Recorded t.before ts) :
    Recorded t.after (t :: ts) := by
  intro k w
  cases h with
  | clear => rw [openings_clear rfl, Cache.get?_empty, Option.toList_none]
  | @issue r es c c' done =>
    have hc : c' = c := by
      cases r with
      | ok a => exact done.stored a rfl
      | error e => exact done.kept e rfl
    rw [openings_other Call.noConfusion Call.noConfusion, hr k w, hc]
  | @known keyId wrapped plaintext c known =>
    by_cases hp : Call.decrypt keyId wrapped = .decrypt k w
    · rw [openings_own hp, hr k w]
      rfl
    · rw [openings_other Call.noConfusion hp, hr k w]
  | @missed keyId wrapped r es c c' missed done =>
    by_cases hp : Call.decrypt keyId wrapped = .decrypt k w
    -- nothing was opened for the pair before, or it would be known
    · cases hp
      have hread : es.filterMap (fun e => opened? e.reply) = r.toOption.toList := done.readings
      rw [openings_own rfl, hr, missed, hread, Option.toList_none, List.append_nil]
      cases r with
      | ok a => rw [done.stored a rfl, Purpose.open, Cache.get?_insert_self]; rfl
      | error e => rw [done.kept e rfl, missed]; rfl
    · rw [openings_other Call.noConfusion hp, hr k w]
      cases r with
      | ok a =>
        have hn : ¬ (wrapped = w ∧ keyId = k) := by
          rintro ⟨rfl, rfl⟩
          exact hp rfl
        rw [done.stored a rfl, Purpose.open, Cache.get?_insert_ne _ _ _ _ hn]
      | error e => rw [done.kept e rfl]

end Openings

section Runs

variable (x : Surroundings)

lemma Surroundings.turn_lawful (s : Session) (c : Call) : Lawful x.base (x.turn s c).1 := by
  cases c with
  | issue =>
    obtain ⟨es, hes, hd⟩ := fulfils_issue (x := x) (s := { s with exchanges := [] })
    rw [List.append_nil] at hes
    exact .issue (hes ▸ hd)
  | decrypt keyId wrapped =>
    cases hg : s.cache.get? wrapped keyId with
    | some plaintext =>
      have hk := decrypt_known (x := x) (s := { s with exchanges := [] }) hg
      rw [turn, call, map_apply, hk]
      exact .known hg
    | none =>
      obtain ⟨es, hes, hd⟩ := fulfils_decrypt (x := x) (s := { s with exchanges := [] }) hg
      rw [List.append_nil] at hes
      exact .missed hg (hes ▸ hd)
  | clear =>
    rw [turn, call, map_apply, clear_service]
    exact .clear

lemma Surroundings.recorded (cs : List Call) : Recorded (x.book cs).session.cache (x.book cs).turns := by
  have hfold (b : Book) (hb : Recorded b.session.cache b.turns) :
      Recorded (cs.foldl x.enter b).session.cache (cs.foldl x.enter b).turns := by
    induction cs generalizing b with
    | nil => exact hb
    | cons c cs ih =>
      have ht : (x.turn b.session c).1.before = b.session.cache := rfl
      exact ih (x.enter b c) ((x.turn_lawful b.session c).recorded (ht ▸ hb))
  apply hfold
  intro k w
  rw [Cache.get?_empty]
  rfl

end Runs

/-- After any calls exactly the pairs are known that were opened since the keys were last forgotten,
each pair once; and whatever is called then, its last answer decides. -/
theorem known_since_cleared (x : Surroundings) (cs : List Call) :
    (∀ keyId wrapped plaintext, (x.book cs).session.cache.get? wrapped keyId = some plaintext ↔
      plaintext ∈ openings keyId wrapped (x.book cs).turns) ∧
    (∀ keyId wrapped, (openings keyId wrapped (x.book cs).turns).length ≤ 1) ∧
    ∀ c, Lawful x.base (x.turn (x.book cs).session c).1 := by
  refine ⟨fun k w t => ?_, fun k w => ?_, fun c => x.turn_lawful _ c⟩
  · rw [x.recorded cs k w, Option.mem_toList]
  · rw [x.recorded cs k w]
    cases (x.book cs).session.cache.get? w k with
    | none => exact Nat.zero_le 1
    | some t => exact Nat.le_refl 1

end DumpImport.KeyService
