import DumpImport.Time.Span

/-!
How often to try again, and how long to wait in between. Waits grow by equal steps.
-/
namespace DumpImport.Retry

structure Policy where
  maxAttempts : UInt32
  initial : Time.Span
  multiplier : UInt32
  one_le : 1 ≤ maxAttempts.toNat

namespace Policy

def of (maxAttempts : UInt32) (initial : Time.Span) (multiplier : UInt32) : Policy :=
  if h : 1 ≤ maxAttempts.toNat then ⟨maxAttempts, initial, multiplier, h⟩
  else ⟨1, initial, multiplier, by decide⟩

def standard : Policy := of 5 (.ofMillis 1000) 2

def topFactor : UInt32 := 0xFFFFFFFF

def factor (n multiplier : UInt32) : UInt32 :=
  let product := n.toUInt64 * multiplier.toUInt64
  if product ≤ topFactor.toUInt64 then product.toUInt32 else topFactor

/-- The wait after attempt `n`, counted from zero. -/
def delay (p : Policy) (n : UInt32) : Time.Span :=
  if n = 0 then p.initial else p.initial.scale (factor n p.multiplier)

end Policy

end DumpImport.Retry
