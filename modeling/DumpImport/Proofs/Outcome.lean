import Mathlib.Algebra.BigOperators.Group.List.Basic
import Mathlib.Algebra.GroupWithZero.Nat
import Mathlib.Tactic.Common

namespace DumpImport

variable {ε α β : Type}

lemma bind_eq_ok {x : Except ε α} {f : α → Except ε β} {b : β} :
    (x >>= f) = .ok b ↔ ∃ a, x = .ok a ∧ f a = .ok b := by
  cases x with
  | error e => simp [bind, Except.bind]
  | ok a => simp [bind, Except.bind]

lemma bind_eq_error {x : Except ε α} {f : α → Except ε β} {e : ε} :
    (x >>= f) = .error e ↔ x = .error e ∨ ∃ a, x = .ok a ∧ f a = .error e := by
  cases x with
  | error e => simp [bind, Except.bind]
  | ok a => simp [bind, Except.bind]

lemma map_eq_ok {x : Except ε α} {f : α → β} {b : β} : x.map f = .ok b ↔ ∃ a, x = .ok a ∧ b = f a := by
  cases x with
  | error e => simp [Except.map]
  | ok a => simp [Except.map, eq_comm]

lemma map_eq_error {x : Except ε α} {f : α → β} {e : ε} : x.map f = .error e ↔ x = .error e := by
  cases x <;> simp [Except.map]

lemma toOption_eq_some {x : Except ε α} {a : α} : x.toOption = some a ↔ x = .ok a := by
  cases x <;> simp [Except.toOption]

lemma map_set_of_eq {f : α → β} {ts : List α} {i : Nat} {t t' : α} (h : ts[i]? = some t) (hf : f t' = f t) :
    (ts.set i t').map f = ts.map f := by
  obtain ⟨hi, rfl⟩ := List.getElem?_eq_some_iff.mp h
  rw [List.map_set, hf, ← List.getElem_map f (h := by simpa using hi), List.set_getElem_self]

lemma sum_map_set {α M : Type} [AddCommMonoid M] (f : α → M) {ts : List α} {i : Nat} {t : α} (t' : α)
    (h : ts[i]? = some t) : ((ts.set i t').map f).sum + f t = (ts.map f).sum + f t' := by
  induction ts generalizing i with
  | nil => cases h
  | cons u ts ih =>
    cases i with
    | zero =>
      cases h
      simp only [List.set_cons_zero, List.map_cons, List.sum_cons]
      rw [add_comm, ← add_assoc, add_right_comm]
    | succ i =>
      simp only [List.set_cons_succ, List.map_cons, List.sum_cons, add_assoc]
      rw [ih h]

lemma forall_getElem?_set {P Q : Nat → α → β → Prop} {xs : List α} {ys : List β} {i : Nat} {y' : β}
    (h : ∀ j x y, xs[j]? = some x → ys[j]? = some y → P j x y) (hi : i < ys.length)
    (hself : ∀ x, xs[i]? = some x → Q i x y') (hne : ∀ j x y, j ≠ i → P j x y → Q j x y) :
    ∀ j x y, xs[j]? = some x → (ys.set i y')[j]? = some y → Q j x y := by
  intro j x y hx hy
  by_cases hij : i = j
  · subst hij
    rw [List.getElem?_set_self hi] at hy
    cases hy
    exact hself x hx
  · rw [List.getElem?_set_ne hij] at hy
    exact hne j x y (Ne.symm hij) (h j x y hx hy)

section States

variable {σ : Type}

lemma bind_apply (x : StateM σ α) (f : α → StateM σ β) (s : σ) : (x >>= f) s = f (x s).1 (x s).2 := rfl

lemma pure_apply (a : α) (s : σ) : (pure a : StateM σ α) s = (a, s) := rfl

lemma map_apply (f : α → β) (x : StateM σ α) (s : σ) : (f <$> x) s = (f (x s).1, (x s).2) := rfl

lemma bind_of_fst {x : StateM σ α} {s : σ} {a : α} (h : (x s).1 = a) (f : α → StateM σ β) :
    (x >>= f) s = f a (x s).2 := by
  rw [bind_apply, h]

end States

end DumpImport
