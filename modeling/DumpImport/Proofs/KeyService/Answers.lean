import DumpImport.KeyService.Remote
import DumpImport.Proofs.Outcome
import Mathlib.Tactic.Common

namespace DumpImport

def Web.Reply.read? {α : Type} (status : Nat) (parse : Bytes → Except Json.Error α) : Web.Reply → Option α
  | .answer n body => if n = status then (parse body).toOption else none
  | .dropped => none

namespace KeyService

def issued? (r : Web.Reply) : Option DataKey := r.read? 201 DataKey.parse

def opened? (r : Web.Reply) : Option String := r.read? 200 parsePlainKey

def Refused (r : Web.Reply) : Prop := ∃ body, r = .answer 400 body

section Caches

@[simp] lemma Cache.get?_empty (wrapped keyId : String) : Cache.empty.get? wrapped keyId = none := by
  simp [Cache.get?, Cache.empty]

variable (c : Cache) (wrapped keyId plaintext : String)

@[simp] lemma Cache.get?_insert_self :
    (c.insert wrapped keyId plaintext).get? wrapped keyId = some plaintext := by
  simp [Cache.get?, Cache.insert]

lemma Cache.get?_insert_ne {wrapped' keyId' : String} (h : ¬ (wrapped = wrapped' ∧ keyId = keyId')) :
    (c.insert wrapped keyId plaintext).get? wrapped' keyId' = c.get? wrapped' keyId' := by
  rw [Cache.get?, Cache.get?, insert, Std.HashMap.getElem?_insert]
  exact if_neg (by simpa using h)

end Caches

section Outcomes

variable {operation correlation keyId : String} {u : Web.Url} {r : Web.Reply} {e : Error}

lemma sendable_eq_ok {x : Except Web.Url.Error Web.Request} {q : Web.Request}
    (h : Remote.sendable operation correlation x = .ok q) : x = .ok q := by
  cases x with
  | error e => cases h
  | ok q' =>
    rw [Remote.sendable] at h
    split_ifs at h
    cases h
    rfl

lemma sendable_retryable {x : Except Web.Url.Error Web.Request}
    (h : Remote.sendable operation correlation x = .error e) : e.isRetryable = true := by
  cases x with
  | error _ =>
    cases h
    rfl
  | ok _ =>
    rw [Remote.sendable] at h
    split_ifs at h
    cases h
    rfl

structure Understands {α : Type} (answer : (correlation : String) → Nat → Bytes → Except Error α)
    (reads : Web.Reply → Option α) (refuses : Web.Reply → Prop) : Prop where
  ok : ∀ operation correlation u r a,
    Remote.settle operation correlation u (answer correlation) r = .ok a ↔ reads r = some a
  permanent : ∀ operation correlation u r,
    (∃ e, Remote.settle operation correlation u (answer correlation) r = .error e ∧ e.isRetryable = false) ↔
      refuses r

lemma settle_eq_ok {α : Type} {status : Nat} {parse : Bytes → Except Json.Error α} {f : Json.Error → Error}
    {answer : Nat → Bytes → Except Error α} (hs : ∀ body, answer status body = (parse body).mapError f)
    (ho : ∀ n body a, n ≠ status → answer n body ≠ .ok a) (a : α) :
    Remote.settle operation correlation u answer r = .ok a ↔ r.read? status parse = some a := by
  cases r with
  | dropped => simp [Remote.settle, Web.Reply.read?]
  | answer n body =>
    by_cases h : n = status
    · subst h
      rw [Remote.settle, hs, Web.Reply.read?, if_pos rfl, toOption_eq_some]
      cases parse body <;> simp [Except.mapError]
    · refine iff_of_false (ho n body a h) ?_
      simp [Web.Reply.read?, h]

lemma understands_issue : Understands Remote.issueAnswer issued? fun _ => False where
  ok operation correlation u r a := by
    refine settle_eq_ok (fun body => by rw [Remote.issueAnswer, if_pos rfl]) (fun n body a hn => ?_) a
    rw [Remote.issueAnswer, if_neg hn]
    rintro ⟨⟩
  permanent operation correlation u r := by
    rw [iff_false]
    rintro ⟨e, he, hr⟩
    cases r with
    | dropped =>
      cases he
      cases hr
    | answer n body =>
      rw [Remote.settle, Remote.issueAnswer] at he
      split_ifs at he
      · cases hp : DataKey.parse body <;> rw [hp] at he <;> cases he
        cases hr
      · cases he
        cases hr

lemma understands_decrypt (keyId : String) : Understands (Remote.decryptAnswer keyId) opened? Refused where
  ok operation correlation u r a := by
    refine settle_eq_ok (fun body => by rw [Remote.decryptAnswer, if_pos rfl]) (fun n body a hn => ?_) a
    rw [Remote.decryptAnswer, if_neg hn]
    split_ifs <;> rintro ⟨⟩
  permanent operation correlation u r := by
    constructor
    · rintro ⟨e, he, hr⟩
      cases r with
      | dropped =>
        cases he
        cases hr
      | answer n body =>
        rw [Remote.settle, Remote.decryptAnswer] at he
        split_ifs at he with hok hbad
        · cases hp : parsePlainKey body <;> rw [hp] at he <;> cases he
          cases hr
        · exact ⟨body, by rw [hbad]⟩
        · cases he
          cases hr
    · rintro ⟨body, rfl⟩
      exact ⟨_, rfl, rfl⟩

end Outcomes

end KeyService

end DumpImport
