import Std.Data.ExtTreeMap
import Std.Data.ExtTreeSet

set_option autoImplicit false

/-! Identifiers of tables, pages, records and transactions, with total orders as keys of maps: pages
are ordered by table and number, records by page and slot. -/

namespace RecordStore

structure TableId where
  value : UInt32
  deriving DecidableEq, Inhabited, Repr

structure PageId where
  table : TableId
  number : UInt32
  deriving DecidableEq, Inhabited, Repr

structure RecordId where
  page : PageId
  slot : Nat
  deriving DecidableEq, Inhabited, Repr

structure TransactionId where
  value : UInt64
  deriving DecidableEq, Inhabited, Repr

inductive Access where
  | readOnly
  | readWrite
  deriving DecidableEq, Inhabited, Repr

instance : Ord TableId := ⟨compareOn TableId.value⟩

instance : Std.TransOrd TableId := inferInstanceAs (Std.TransCmp (compareOn TableId.value))

instance : Std.LawfulEqOrd TableId where
  eq_of_compare {left right} same := by
    cases left
    cases right
    have values := Std.LawfulEqOrd.eq_of_compare (α := UInt32) same
    simp_all

instance : Ord TransactionId := ⟨compareOn TransactionId.value⟩

instance : Std.TransOrd TransactionId :=
  inferInstanceAs (Std.TransCmp (compareOn TransactionId.value))

instance : Std.LawfulEqOrd TransactionId where
  eq_of_compare {left right} same := by
    cases left
    cases right
    have values := Std.LawfulEqOrd.eq_of_compare (α := UInt64) same
    simp_all

instance : Ord PageId := ⟨compareLex (compareOn PageId.table) (compareOn PageId.number)⟩

instance : Std.TransOrd PageId :=
  inferInstanceAs (Std.TransCmp (compareLex (compareOn PageId.table) (compareOn PageId.number)))

theorem PageId.compare_eq_then (left right : PageId) :
    compare left right =
      (compare left.table right.table).then (compare left.number right.number) := rfl

instance : Std.LawfulEqOrd PageId where
  eq_of_compare {left right} same := by
    rw [PageId.compare_eq_then, Ordering.then_eq_eq] at same
    cases left
    cases right
    have tables := Std.LawfulEqOrd.eq_of_compare same.1
    have numbers := Std.LawfulEqOrd.eq_of_compare same.2
    simp_all

instance : Ord RecordId := ⟨compareLex (compareOn RecordId.page) (compareOn RecordId.slot)⟩

instance : Std.TransOrd RecordId :=
  inferInstanceAs (Std.TransCmp (compareLex (compareOn RecordId.page) (compareOn RecordId.slot)))

theorem RecordId.compare_eq_then (left right : RecordId) :
    compare left right =
      (compare left.page right.page).then (compare left.slot right.slot) := rfl

instance : Std.LawfulEqOrd RecordId where
  eq_of_compare {left right} same := by
    rw [RecordId.compare_eq_then, Ordering.then_eq_eq] at same
    cases left
    cases right
    have pages := Std.LawfulEqOrd.eq_of_compare same.1
    have slots := Std.LawfulEqOrd.eq_of_compare same.2
    simp_all

def hexDigits (width number : Nat) : String :=
  let digits := Nat.toDigits 16 number
  String.ofList (List.replicate (width - digits.length) '0' ++ digits)

def TableId.text (table : TableId) : String :=
  "table-" ++ hexDigits 8 table.value.toNat

def PageId.text (page : PageId) : String :=
  page.table.text ++ "/page-" ++ toString page.number.toNat

def TransactionId.text (transaction : TransactionId) : String :=
  "txn-" ++ toString transaction.value.toNat

def TransactionId.first : TransactionId := ⟨1⟩

def TransactionId.next (transaction : TransactionId) : TransactionId := ⟨transaction.value + 1⟩

def TransactionId.sequence : Nat → TransactionId → List TransactionId
  | 0, _ => []
  | count + 1, transaction => transaction :: sequence count transaction.next

end RecordStore
