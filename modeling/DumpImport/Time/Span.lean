/-!
Lengths of time, to the nanosecond, in machine words. There is a longest one, and scaling stops at it.
-/
namespace DumpImport.Time

structure Span where
  seconds : UInt64
  fraction : UInt32
  fraction_lt : fraction.toNat < 1000000000
deriving DecidableEq

def plus? (a b : UInt64) : Option UInt64 :=
  if a.toNat + b.toNat < UInt64.size then some (a + b) else none

def times? (a b : UInt64) : Option UInt64 :=
  if a.toNat * b.toNat < UInt64.size then some (a * b) else none

namespace Span

def secs (d : Span) : Nat := d.seconds.toNat

def nanos (d : Span) : Nat := d.fraction.toNat

def longest : Span := ⟨0xFFFFFFFFFFFFFFFF, 999999999, by decide⟩

def zero : Span := ⟨0, 0, by decide⟩

def total (d : Span) : Nat := d.secs * 1000000000 + d.nanos

theorem toNat_fraction_of_millis (n : UInt64) :
    ((n % 1000).toUInt32 * 1000000).toNat = n.toNat % 1000 * 1000000 := by
  have h : n.toNat % 1000 < 1000 := Nat.mod_lt _ (by decide)
  simp only [UInt32.toNat_mul, UInt64.toNat_toUInt32, UInt64.toNat_mod,
    UInt64.reduceToNat, UInt32.reduceToNat]
  omega

def ofMillis (ms : UInt64) : Span :=
  ⟨ms / 1000, (ms % 1000).toUInt32 * 1000000, by rw [toNat_fraction_of_millis]; omega⟩

def millis (d : Span) : Nat := d.total / 1000000

theorem toNat_fraction_of_nanos (n : UInt64) :
    (n % 1000000000).toUInt32.toNat = n.toNat % 1000000000 := by
  have h : n.toNat % 1000000000 < 1000000000 := Nat.mod_lt _ (by decide)
  simp only [UInt64.toNat_toUInt32, UInt64.toNat_mod, UInt64.reduceToNat]
  omega

/-- What the nanoseconds gain beyond a second is carried over. -/
def scale (d : Span) (k : UInt32) : Span :=
  let nanos := d.fraction.toUInt64 * k.toUInt64
  match (times? d.seconds k.toUInt64).bind (plus? · (nanos / 1000000000)) with
  | some seconds =>
    ⟨seconds, (nanos % 1000000000).toUInt32, by rw [toNat_fraction_of_nanos]; exact Nat.mod_lt _ (by decide)⟩
  | none => longest

end Span

end DumpImport.Time
