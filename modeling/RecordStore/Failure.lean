import RecordStore.Identifier
import RecordStore.Text.Utf8

set_option autoImplicit false

/-! Errors. A `StorageError` is returned to the caller; a `Fault` is arithmetic without a result and
ends the program. `Failure` is either of them. -/

namespace RecordStore

inductive SystemError where
  | notFound
  | notDirectory
  | isDirectory
  | nameTooLong
  | nulInPath
  | invalidArgument
  | lengthOutOfRange
  | endOfBytes
  | other (detail : String)
  deriving DecidableEq, Inhabited, Repr

def SystemError.text : SystemError → String
  | .notFound => "No such file or directory (os error 2)"
  | .notDirectory => "Not a directory (os error 20)"
  | .isDirectory => "Is a directory (os error 21)"
  | .nameTooLong => "File name too long (os error 36)"
  | .nulInPath => "file name contained an unexpected NUL byte"
  | .invalidArgument => "Invalid argument (os error 22)"
  | .lengthOutOfRange => "number too large to fit in target type"
  | .endOfBytes => "failed to fill whole buffer"
  | .other detail => detail

inductive Corruption where
  | textLength (length : Int32)
  | badText (fault : Utf8.Fault)
  | bufferSize (expected actual : Nat)
  | other (detail : String)
  deriving DecidableEq, Inhabited, Repr

def Corruption.text : Corruption → String
  | .textLength length => "string length " ++ toString length.toInt ++ " out of range"
  | .badText fault => fault.text
  | .bufferSize expected actual =>
      "buffer size must be " ++ toString expected ++ " bytes, got " ++ toString actual
  | .other detail => detail

inductive StorageError where
  | lockTimeout (transaction : TransactionId) (page : PageId)
  | cacheFull (capacity : Nat)
  | foreignTable (expected actual : TableId)
  | foreignPage (page recordPage : PageId)
  | schemaMismatch
  | rowTooWide (width pageSize : Nat)
  | unknownTable (table : TableId)
  | missingPage (page : PageId)
  | pageOutOfRange (number count : UInt32)
  | slotEmpty (page : PageId) (slot : Nat)
  | slotOutOfRange (slot count : Nat)
  | pageFull (page : PageId)
  | unplacedRow
  | corrupt (cause : Corruption)
  | system (cause : SystemError)
  deriving DecidableEq, Inhabited, Repr

def StorageError.text : StorageError → String
  | .lockTimeout transaction page =>
      transaction.text ++ " aborted: lock wait on " ++ page.text ++ " timed out"
  | .cacheFull capacity =>
      "Buffer pool is full: none of " ++ toString capacity ++ " cached pages can be evicted"
  | .foreignTable expected actual =>
      "Record belongs to " ++ actual.text ++ ", not " ++ expected.text
  | .foreignPage page recordPage =>
      "Record " ++ recordPage.text ++ " is not stored on " ++ page.text
  | .schemaMismatch => "Tuple does not match the table schema"
  | .rowTooWide width pageSize =>
      "Tuples of " ++ toString width ++ " bytes do not fit a " ++ toString pageSize ++
        "-byte page"
  | .unknownTable table => table.text ++ " is not registered with the buffer pool"
  | .missingPage page => "Page not found: " ++ page.text
  | .pageOutOfRange number count =>
      "Page " ++ toString number.toNat ++ " is past the end of the file (" ++
        toString count.toNat ++ " pages)"
  | .slotEmpty page slot => "Slot " ++ toString slot ++ " on " ++ page.text ++ " is empty"
  | .slotOutOfRange slot count =>
      "Invalid slot " ++ toString slot ++ " (page has " ++ toString count ++ " slots)"
  | .pageFull page => page.text ++ " has no empty slot"
  | .unplacedRow => "Tuple has no record id"
  | .corrupt cause => "Corrupt page data: " ++ cause.text
  | .system cause => "IO error: " ++ cause.text

def StorageError.trail : StorageError → List String
  | .system cause => [(StorageError.system cause).text, cause.text]
  | error => [error.text]

/-- Holds of the errors after which a transaction is to be aborted and may be tried again. -/
def StorageError.endsTransaction : StorageError → Bool
  | .lockTimeout _ _ => true
  | _ => false

inductive Fault where
  | multiplyOverflow
  | divideByZero
  | emptyRange
  | capacityOverflow
  | cacheOverflow
  | endlessAppend
  deriving DecidableEq, Inhabited, Repr

def Fault.text : Fault → String
  | .multiplyOverflow => "attempt to multiply with overflow"
  | .divideByZero => "attempt to divide by zero"
  | .emptyRange => "cannot sample empty range"
  | .capacityOverflow => "capacity overflow"
  | .cacheOverflow => "Hash table capacity overflow"
  | .endlessAppend => "the appended pages are always full"

inductive Failure where
  | refused (error : StorageError)
  | broken (fault : Fault)
  deriving DecidableEq, Inhabited, Repr

/-- Words count up to here; a product at or past it has no answer. -/
def wordLimit : Nat := 18446744073709551616

def multiply (left right : Nat) : Except Fault Nat :=
  if left * right < wordLimit then .ok (left * right) else .error .multiplyOverflow

end RecordStore
