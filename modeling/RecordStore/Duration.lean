import RecordStore.Failure

set_option autoImplicit false

/-! Durations, and the range from which the bound of a lock wait is drawn. -/

namespace RecordStore

structure Duration where
  seconds : UInt64
  fraction : Fin 1000000000
  deriving DecidableEq, Inhabited, Repr

namespace Duration

def nanoseconds (duration : Duration) : Nat :=
  duration.seconds.toNat * 1000000000 + duration.fraction.val

def ofNanoseconds (nanoseconds : Nat) : Duration :=
  ⟨UInt64.ofNat (nanoseconds / 1000000000), Fin.ofNat 1000000000 nanoseconds⟩

def ofMilliseconds (milliseconds : Nat) : Duration := ofNanoseconds (milliseconds * 1000000)

end Duration

structure WaitRange where
  least : Duration
  most : Duration
  deriving DecidableEq, Inhabited, Repr

namespace WaitRange

/-- The range between two durations given in either order. -/
def between (first second : Duration) : WaitRange :=
  if first.nanoseconds ≤ second.nanoseconds then ⟨first, second⟩ else ⟨second, first⟩

def fixed (bound : Duration) : WaitRange := ⟨bound, bound⟩

def standard : WaitRange := ⟨Duration.ofMilliseconds 1, Duration.ofMilliseconds 500⟩

/-- A bound in nanoseconds. The ends are cut to words first, and the sample chooses among the
bounds between them. -/
def draw (range : WaitRange) (sample : Nat) : Except Fault Nat :=
  let least := range.least.nanoseconds % wordLimit
  let most := range.most.nanoseconds % wordLimit
  if least ≤ most then .ok (least + sample % (most - least + 1)) else .error .emptyRange

end WaitRange

end RecordStore
