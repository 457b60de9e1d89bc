import RecordStore.Identifier

set_option autoImplicit false

/-! Ranges of page numbers, kept as start and length. -/

namespace RecordStore

structure PageSpan where
  first : Nat
  length : Nat
  deriving DecidableEq, Inhabited, Repr

namespace PageSpan

def empty : PageSpan := ⟨0, 0⟩

def before (count : UInt32) : PageSpan := ⟨0, count.toNat⟩

end PageSpan

end RecordStore
