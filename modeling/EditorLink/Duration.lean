/-! Spans of time as seconds and nanoseconds, and their length in whole milliseconds. -/
namespace EditorLink

structure Duration where
  seconds : UInt64
  nanos : Nat
  nanos_lt : nanos < 1000000000 := by omega
deriving DecidableEq, Repr

/-- The greatest count of seconds or of milliseconds. -/
def greatestCount : Nat := 18446744073709551615

namespace Duration

/-- Whole seconds among the nanoseconds are carried; none where the seconds are then too many. -/
def ofParts? (seconds : UInt64) (nanos : Nat) : Option Duration :=
  let whole := seconds.toNat + nanos / 1000000000
  if whole ≤ greatestCount then
    some {
      seconds := UInt64.ofNat whole
      nanos := nanos % 1000000000
      nanos_lt := Nat.mod_lt nanos (by decide) }
  else none

def totalNanos (d : Duration) : Nat := d.seconds.toNat * 1000000000 + d.nanos

/-- Parts of a millisecond are dropped; a longer span than can be counted becomes the longest. -/
def toMillis (d : Duration) : UInt64 :=
  UInt64.ofNat (min (d.totalNanos / 1000000) greatestCount)

def ofMillis (ms : UInt64) : Duration where
  seconds := UInt64.ofNat (ms.toNat / 1000)
  nanos := ms.toNat % 1000 * 1000000
  nanos_lt := by have := Nat.mod_lt ms.toNat (by decide : 0 < 1000); omega

theorem toNat_le_greatestCount (n : UInt64) : n.toNat ≤ greatestCount := Nat.le_of_lt_succ n.toNat_lt

/-- The count of milliseconds never wraps around. -/
theorem toNat_toMillis (d : Duration) : d.toMillis.toNat = min (d.totalNanos / 1000000) greatestCount :=
  UInt64.toNat_ofNat_of_lt' (Nat.lt_succ_of_le (Nat.min_le_right _ _))

/-- Nor does the count of seconds. -/
theorem totalNanos_ofMillis (ms : UInt64) : (ofMillis ms).totalNanos = ms.toNat * 1000000 := by
  have seconds : (UInt64.ofNat (ms.toNat / 1000)).toNat = ms.toNat / 1000 :=
    UInt64.toNat_ofNat_of_lt' (Nat.lt_of_le_of_lt (Nat.div_le_self _ _) ms.toNat_lt)
  unfold totalNanos ofMillis
  dsimp only
  rw [seconds]
  omega

@[simp] theorem toMillis_ofMillis (ms : UInt64) : (ofMillis ms).toMillis = ms := by
  rw [toMillis,totalNanos_ofMillis,Nat.mul_div_cancel _ (by decide),
    Nat.min_eq_left (toNat_le_greatestCount ms),UInt64.ofNat_toNat]

end Duration
end EditorLink
