import DumpImport.Retry.Policy

namespace DumpImport.Retry

inductive Outcome (α ε : Type) where
  | success (a : α)
  | retryable (e : ε)
  | fatal (e : ε)

namespace Policy

theorem toNat_succ {p : Policy} {n : UInt32} (h : n < p.maxAttempts) : (n + 1).toNat = n.toNat + 1 := by
  have hn := UInt32.lt_iff_toNat_lt.mp h
  have hm := p.maxAttempts.toNat_lt
  rw [UInt32.toNat_add, UInt32.toNat_one]
  omega

theorem zero_lt (p : Policy) : 0 < p.maxAttempts := UInt32.lt_iff_toNat_lt.mpr p.one_le

variable {m : Type → Type} [Monad m] {α ε : Type}

def attempts (p : Policy) (pause : Time.Span → m Unit) (attempt : m (Outcome α ε)) (n : UInt32)
    (_h : n < p.maxAttempts) : m (Except ε α) := do
  match ← attempt with
  | .success a => return .ok a
  | .fatal e => return .error e
  | .retryable e =>
    if hn : p.maxAttempts ≤ n + 1 then return .error e
    else
      pause (p.delay n)
      p.attempts pause attempt (n + 1) (UInt32.not_le.mp hn)
termination_by p.maxAttempts.toNat - n.toNat
decreasing_by
  have hlt := UInt32.lt_iff_toNat_lt.mp _h
  rw [toNat_succ _h]
  omega

def run (p : Policy) (pause : Time.Span → m Unit) (attempt : m (Outcome α ε)) : m (Except ε α) :=
  p.attempts pause attempt 0 p.zero_lt

end Policy

end DumpImport.Retry
