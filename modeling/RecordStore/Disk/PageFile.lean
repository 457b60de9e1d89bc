import RecordStore.Disk.Directory

set_option autoImplicit false

/-! A file read and written by pages: page `n` is the `n`-th run of `pageSize` bytes, and bytes past
the last whole page belong to no page. System calls on the file never fail in this model. The errors
of `read`, `write` and `allocate` are a buffer of the wrong size, a page number out of range, a page
size of zero, and a page longer than `longestBuffer`. -/

namespace RecordStore

structure PageFile where
  file : FileId
  pageSize : Nat
  deriving DecidableEq, Inhabited, Repr

/-- No buffer is longer than half of the addresses. -/
def longestBuffer : Nat := 9223372036854775807

namespace PageFile

def size (pages : PageFile) (directory : Directory) : Nat :=
  (directory.content pages.file).length

/-- The number of whole pages, as a page number can say it. -/
def count (pages : PageFile) (directory : Directory) : Except Fault UInt32 :=
  if pages.pageSize = 0 then .error .divideByZero
  else .ok (UInt32.ofNat (pages.size directory / pages.pageSize))

def offset (pages : PageFile) (number : UInt32) : Nat := number.toNat * pages.pageSize

def read (pages : PageFile) (directory : Directory) (number : UInt32) (bufferSize : Nat) :
    Except Failure (List UInt8) :=
  if bufferSize ≠ pages.pageSize then
    .error (.refused (.corrupt (.bufferSize pages.pageSize bufferSize)))
  else
    match pages.count directory with
    | .error fault => .error (.broken fault)
    | .ok count =>
        if count ≤ number then .error (.refused (.pageOutOfRange number count))
        else
          .ok ((directory.content pages.file).slice (pages.offset number) pages.pageSize)

def write (pages : PageFile) (directory : Directory) (number : UInt32) (bytes : List UInt8) :
    Except StorageError Directory :=
  if bytes.length ≠ pages.pageSize then
    .error (.corrupt (.bufferSize pages.pageSize bytes.length))
  else
    .ok (directory.store pages.file
      ((directory.content pages.file).write (pages.offset number) bytes))

def allocate (pages : PageFile) (directory : Directory) :
    Except Failure (UInt32 × Directory) :=
  match pages.count directory with
  | .error fault => .error (.broken fault)
  | .ok number =>
      if longestBuffer < pages.pageSize then .error (.broken .capacityOverflow)
      else
        match pages.write directory number (List.replicate pages.pageSize 0) with
        | .error error => .error (.refused error)
        | .ok directory => .ok (number, directory)

end PageFile

end RecordStore
