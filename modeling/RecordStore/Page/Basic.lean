import RecordStore.Page.Layout
import RecordStore.Row

set_option autoImplicit false

/-! Pages of rows. A page has its bitmap as read, the row of every taken slot, the transaction that
last changed it, and its before-image: its bytes when it was last read or written. The bytes of a
slot are decoded only if its bit is set, so a page of zeros is an empty page. -/

namespace RecordStore

structure Page where
  id : PageId
  schema : Schema
  size : Nat
  bitmap : Array UInt8
  slots : Array (Option Row)
  dirtier : Option TransactionId
  beforeImage : List UInt8
  deriving Repr

namespace Page

def decodeSlots (id : PageId) (schema : Schema) (bitmap : Array UInt8) (width : Nat) :
    (remaining slot : Nat) → List UInt8 → Except StorageError (List (Option Row))
  | 0, _, _ => .ok []
  | remaining + 1, slot, bytes =>
      if Layout.isSet bitmap slot then
        match Row.decode schema (bytes.take width) with
        | .error error => .error error
        | .ok row =>
            (decodeSlots id schema bitmap width remaining (slot + 1) (bytes.drop width)).map
              (some (row.placed (some ⟨id, slot⟩)) :: ·)
      else
        (decodeSlots id schema bitmap width remaining (slot + 1) (bytes.drop width)).map (none :: ·)

def decode (id : PageId) (schema : Schema) (bytes : List UInt8) : Except StorageError Page :=
  let slotCount := Layout.slotCount bytes.length schema.width
  let bitmapSize := Layout.bitmapSize slotCount
  let bitmap := (bytes.take bitmapSize).toArray
  match decodeSlots id schema bitmap schema.width slotCount 0 (bytes.drop bitmapSize) with
  | .error error => .error error
  | .ok slots => .ok ⟨id, schema, bytes.length, bitmap, slots.toArray, none, bytes⟩

def slotBytes (width : Nat) : Option Row → List UInt8
  | some row => row.encode
  | none => List.replicate width 0

/-- The bitmap, the slots with zeros in the free ones, and zeros up to the size of the page. -/
def encode (page : Page) : List UInt8 :=
  let content := page.bitmap.toList ++ page.slots.toList.flatMap (slotBytes page.schema.width)
  content ++ List.replicate (page.size - content.length) 0

def slotCount (page : Page) : Nat := page.slots.size

def isUsed (page : Page) (slot : Nat) : Bool :=
  slot < page.slotCount && Layout.isSet page.bitmap slot

def freeCount (page : Page) : Nat :=
  (List.range page.slotCount).countP fun slot => !page.isUsed slot

def firstFree? (page : Page) : Option Nat :=
  (List.range page.slotCount).find? fun slot => !page.isUsed slot

def row? (page : Page) (slot : Nat) : Option Row := page.slots.getD slot none

def rows (page : Page) : List Row := page.slots.toList.filterMap fun slot => slot

def insert (page : Page) (row : Row) : Except StorageError (RecordId × Page) :=
  if row.schema.agrees page.schema then
    match page.firstFree? with
    | none => .error (.pageFull page.id)
    | some slot =>
        let place : RecordId := ⟨page.id, slot⟩
        .ok (place,
          { page with
            bitmap := Layout.setBit page.bitmap slot
            slots := page.slots.setIfInBounds slot (some (row.placed (some place))) })
  else .error .schemaMismatch

def delete (page : Page) (record : RecordId) : Except StorageError Page :=
  if record.page ≠ page.id then .error (.foreignPage page.id record.page)
  else if page.slotCount ≤ record.slot then
    .error (.slotOutOfRange record.slot page.slotCount)
  else if !page.isUsed record.slot then .error (.slotEmpty page.id record.slot)
  else
    .ok { page with
      bitmap := Layout.clearBit page.bitmap record.slot
      slots := page.slots.setIfInBounds record.slot none }

def marked (page : Page) (dirtier : Option TransactionId) : Page :=
  { page with dirtier := dirtier }

def isDirty (page : Page) : Bool := page.dirtier.isSome

def beforePage (page : Page) : Except StorageError Page :=
  decode page.id page.schema page.beforeImage

def remembered (page : Page) : Page := { page with beforeImage := page.encode }

def describe (page : Page) : String :=
  let dirtier := match page.dirtier with
    | none => "None"
    | some transaction => "Some(TransactionId(" ++ toString transaction.value.toNat ++ "))"
  "HeapPage \x7b pid: PageId \x7b table_id: TableId(" ++ toString page.id.table.value.toNat ++
    "), page_number: " ++ toString page.id.number.toNat ++ " \x7d, slots: " ++
    toString page.slotCount ++ ", empty: " ++ toString page.freeCount ++ ", dirtier: " ++
    dirtier ++ " \x7d"

end Page

end RecordStore
