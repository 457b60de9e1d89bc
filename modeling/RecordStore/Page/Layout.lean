import RecordStore.Failure

set_option autoImplicit false

/-! The layout of a page: a bitmap of one bit a slot, the slots, each as wide as a row, and zeros to
the end. -/

namespace RecordStore.Layout

/-- The largest number of slots that fit behind their own bitmap. -/
def slotCount (pageSize rowWidth : Nat) : Nat := pageSize * 8 / (rowWidth * 8 + 1)

def bitmapSize (slots : Nat) : Nat := (slots + 7) / 8

/-- The slot count in word arithmetic, where a product can be too large. -/
def checkedSlotCount (pageSize rowWidth : Nat) : Except Fault Nat :=
  match multiply pageSize 8 with
  | .error fault => .error fault
  | .ok _ =>
      match multiply rowWidth 8 with
      | .error fault => .error fault
      | .ok _ => .ok (slotCount pageSize rowWidth)

/-- Slot `slot` has the bit of this mask in byte `slot / 8` of the bitmap, low bits first. -/
def mask (slot : Nat) : UInt8 := (1 : UInt8) <<< UInt8.ofNat (slot % 8)

def isSet (bitmap : Array UInt8) (slot : Nat) : Bool :=
  bitmap.getD (slot / 8) 0 &&& mask slot != 0

def setBit (bitmap : Array UInt8) (slot : Nat) : Array UInt8 :=
  bitmap.modify (slot / 8) fun byte => byte ||| mask slot

def clearBit (bitmap : Array UInt8) (slot : Nat) : Array UInt8 :=
  bitmap.modify (slot / 8) fun byte => byte &&& ~~~ mask slot

end RecordStore.Layout
