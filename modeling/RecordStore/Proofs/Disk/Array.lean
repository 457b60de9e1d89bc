import RecordStore.Proofs.Disk.Pages

set_option autoImplicit false

/-! A page file refines an array of pages. The file may have any length, and a page may be written
inside it, across its end or past it; all calls are answered as by the array. -/

namespace RecordStore

inductive PageCall where
  | read (number : UInt32) (room : Nat)
  | write (number : UInt32) (bytes : List UInt8)
  | allocate
  deriving DecidableEq, Repr

inductive PageAnswer where
  | bytes (bytes : List UInt8)
  | written
  | allocated (number : UInt32)
  deriving DecidableEq, Repr

/-! ### Arrays of pages -/

@[ext]
structure PageArray where
  count : Nat
  page : Nat → List UInt8

namespace PageArray

def put (array : PageArray) (number : Nat) (bytes : List UInt8) : PageArray where
  count := max array.count (number + 1)
  page other := if other = number then bytes else array.page other

def perform (array : PageArray) (size : Nat) :
    PageCall → Except Failure PageAnswer × PageArray
  | .read number room =>
      if room ≠ size then (.error (.refused (.corrupt (.bufferSize size room))), array)
      else if number.toNat < array.count then (.ok (.bytes (array.page number.toNat)), array)
      else (.error (.refused (.pageOutOfRange number (UInt32.ofNat array.count))), array)
  | .write number bytes =>
      if bytes.length ≠ size then
        (.error (.refused (.corrupt (.bufferSize size bytes.length))), array)
      else (.ok .written, array.put number.toNat bytes)
  | .allocate =>
      if longestBuffer < size then (.error (.broken .capacityOverflow), array)
      else
        (.ok (.allocated (UInt32.ofNat array.count)),
          array.put array.count (List.replicate size 0))

def performAll (array : PageArray) (size : Nat) :
    List PageCall → List (Except Failure PageAnswer) × PageArray
  | [] => ([], array)
  | call :: calls =>
      let (answer, array) := array.perform size call
      let (answers, array) := array.performAll size calls
      (answer :: answers, array)

end PageArray

/-! ### Bytes laid over others, with zeros past the end -/

theorem getElem?_overlay_gap {content bytes : List UInt8} {offset index : Nat}
    (behind : content.length ≤ index) (before : index < offset) (some : bytes ≠ []) :
    (overlay content offset bytes)[index]? = .some 0 := by
  have short : (content.take offset).length = content.length := by
    rw [List.length_take]
    omega
  rw [overlay, List.append_assoc, List.append_assoc, List.getElem?_append_right (by omega), short,
    List.getElem?_append_left (by rw [List.length_replicate]; omega), List.getElem?_replicate,
    if_pos (by omega)]
  exact some

/-- `overlay` counts missing bytes as zeros. -/
theorem getElem?_overlay_getD (content bytes : List UInt8) (offset index : Nat) :
    (overlay content offset bytes)[index]?.getD 0 =
      if offset ≤ index ∧ index < offset + bytes.length then bytes[index - offset]?.getD 0
      else content[index]?.getD 0 := by
  by_cases within : offset ≤ index ∧ index < offset + bytes.length
  · obtain ⟨place, rfl⟩ := Nat.exists_eq_add_of_le within.1
    rw [if_pos within, getElem?_overlay_inside content bytes offset (by omega),
      Nat.add_sub_cancel_left]
  · rw [if_neg within]
    cases present : content[index]? with
    | some byte => rw [getElem?_overlay_outside present within]
    | none =>
        have behind := List.getElem?_eq_none_iff.mp present
        by_cases laid : bytes = []
        · rw [laid]
          exact congrArg (Option.getD · 0) present
        · by_cases before : index < offset
          · rw [getElem?_overlay_gap behind before laid]
            rfl
          · rw [List.getElem?_eq_none]
            rw [length_overlay (.inr laid)]
            omega

namespace PageFile

variable {pages : PageFile} {directory after : Directory} {number : UInt32} {bytes : List UInt8}

/-! ### Calls on a page file -/

/-- A call that fails leaves the directory as it was. -/
def perform (pages : PageFile) (directory : Directory) :
    PageCall → Except Failure PageAnswer × Directory
  | .read number room =>
      match pages.read directory number room with
      | .ok bytes => (.ok (.bytes bytes), directory)
      | .error failure => (.error failure, directory)
  | .write number bytes =>
      match pages.write directory number bytes with
      | .ok after => (.ok .written, after)
      | .error error => (.error (.refused error), directory)
  | .allocate =>
      match pages.allocate directory with
      | .ok (number, after) => (.ok (.allocated number), after)
      | .error failure => (.error failure, directory)

def performAll (pages : PageFile) (directory : Directory) :
    List PageCall → List (Except Failure PageAnswer) × Directory
  | [] => ([], directory)
  | call :: calls =>
      let (answer, directory) := pages.perform directory call
      let (answers, directory) := pages.performAll directory calls
      (answer :: answers, directory)

/-! ### One page of a file -/

structure Overwrites (pages : PageFile) (directory : Directory) (number : Nat)
    (bytes : List UInt8) (after : Directory) : Prop where
  page : pages.bytesAt after number = bytes
  kept : ∀ file offset byte, directory.byteAt? file offset = some byte →
    ¬ pages.Spans number file offset → after.byteAt? file offset = some byte
  gap : ∀ offset, pages.size directory ≤ offset → offset < number * pages.pageSize →
    after.byteAt? pages.file offset = some 0
  size : pages.size after = max (pages.size directory) ((number + 1) * pages.pageSize)
  count : pages.wholePages after = max (number + 1) (pages.wholePages directory)
  others : ∀ file, pages.file ≠ file → after.content file = directory.content file

theorem overwrites_of_write (positive : pages.pageSize ≠ 0)
    (written : pages.write directory number bytes = .ok after) :
    pages.Overwrites directory number.toNat bytes after := by
  obtain ⟨exact, rfl⟩ := write_ok_iff.mp written
  have some : bytes ≠ [] := List.ne_nil_of_length_pos (exact ▸ Nat.pos_of_ne_zero positive)
  refine ⟨bytesAt_put_same exact, fun file offset byte => byteAt?_write written, ?_,
    size_put exact, ?_, fun file => content_put_other _ _⟩
  · intro offset behind before
    rw [size_eq_length] at behind
    rw [Directory.byteAt?, content_put]
    exact getElem?_overlay_gap behind before some
  · rw [Nat.max_comm]
    exact wholePages_put positive exact

/-- What the calls do while the pages can be counted: reading returns the page, writing replaces one
page, allocating appends zeros, and a buffer of another size is refused. -/
structure Lawful (pages : PageFile) (directory : Directory) : Prop where
  reads : ∀ number room bytes, pages.read directory number room = .ok bytes ↔
    room = pages.pageSize ∧ number.toNat < pages.wholePages directory ∧
      bytes = ((directory.content pages.file).toList.drop (number.toNat * pages.pageSize)).take
        pages.pageSize
  writes : ∀ number bytes, number.toNat + 1 < UInt32.size → bytes.length = pages.pageSize →
    ∃ after, pages.write directory number bytes = .ok after ∧
      pages.Overwrites directory number.toNat bytes after ∧
      pages.read after number pages.pageSize = .ok bytes
  allocates : pages.wholePages directory + 1 < UInt32.size → pages.pageSize ≤ longestBuffer →
    ∃ number after, number.toNat = pages.wholePages directory ∧
      pages.write directory number (List.replicate pages.pageSize 0) = .ok after ∧
      pages.allocate directory = .ok (number, after)
  refusesRead : ∀ number room, room ≠ pages.pageSize →
    pages.perform directory (.read number room) =
      (.error (.refused (.corrupt (.bufferSize pages.pageSize room))), directory)
  refusesWrite : ∀ number bytes, bytes.length ≠ pages.pageSize →
    pages.perform directory (.write number bytes) =
      (.error (.refused (.corrupt (.bufferSize pages.pageSize bytes.length))), directory)

theorem read_ok_iff_whole (positive : pages.pageSize ≠ 0)
    (countable : pages.wholePages directory < UInt32.size) (number : UInt32) (room : Nat)
    (bytes : List UInt8) :
    pages.read directory number room = .ok bytes ↔
      room = pages.pageSize ∧ number.toNat < pages.wholePages directory ∧
        bytes = ((directory.content pages.file).toList.drop (number.toNat * pages.pageSize)).take
          pages.pageSize := by
  rw [← Content.slice_eq, ← bytesAt]
  constructor
  · intro found
    have fits : room = pages.pageSize := by
      unfold read at found
      split at found
      · cases found
      · next fits => exact Classical.not_not.mp fits
    rw [fits] at found
    obtain ⟨-, inside, same⟩ := read_ok_iff.mp found
    exact ⟨fits, toNat_lt_of_lt_count inside, same.symm⟩
  · rintro ⟨rfl, inside, rfl⟩
    rw [read_eq positive countable, if_pos inside]

theorem lawful (positive : pages.pageSize ≠ 0)
    (countable : pages.wholePages directory < UInt32.size) : pages.Lawful directory where
  reads := read_ok_iff_whole positive countable
  writes number bytes small exact := by
    have written : pages.write directory number bytes = .ok _ := write_eq exact
    have overwrites := overwrites_of_write positive written
    have more := overwrites.count
    refine ⟨_, written, overwrites, ?_⟩
    rw [read_eq positive (by omega), if_pos (by omega), overwrites.page]
  allocates _ fits := by
    refine ⟨_, _, UInt32.toNat_ofNat_of_lt' countable, write_eq List.length_replicate, ?_⟩
    rw [allocate_eq positive countable, if_neg (Nat.not_lt.mpr fits),
      UInt32.toNat_ofNat_of_lt' countable]
  refusesRead _ _ other := by rw [perform, read, if_pos other]
  refusesWrite _ _ other := by rw [perform, write, if_pos other]

/-! ### The array in a file -/

/-- The pages that a file holds, with zeros for what is missing of the last. -/
def arrayIn (pages : PageFile) (directory : Directory) : PageArray where
  count := pages.wholePages directory
  page number := (List.range pages.pageSize).map fun index =>
    (directory.byteAt? pages.file (number * pages.pageSize + index)).getD 0

theorem arrayIn_getElem? (number index : Nat) :
    ((pages.arrayIn directory).page number)[index]? =
      if index < pages.pageSize then
        some ((directory.byteAt? pages.file (number * pages.pageSize + index)).getD 0)
      else none := by
  change ((List.range pages.pageSize).map _)[index]? = _
  rw [List.getElem?_map]
  by_cases within : index < pages.pageSize
  · rw [if_pos within, List.getElem?_range within]
    rfl
  · rw [if_neg within, List.getElem?_eq_none (by rw [List.length_range]; omega)]
    rfl

theorem page_arrayIn {number : Nat} (inside : number < pages.wholePages directory) :
    (pages.arrayIn directory).page number = pages.bytesAt directory number := by
  have whole := length_bytesAt inside
  apply List.ext_getElem?
  intro index
  rw [arrayIn_getElem?]
  by_cases within : index < pages.pageSize
  · have present := List.getElem?_eq_getElem (whole.symm ▸ within)
    rw [if_pos within, present]
    rw [bytesAt_getElem?, if_pos within] at present
    rw [Directory.byteAt?, present, Option.getD_some]
  · rw [if_neg within, List.getElem?_eq_none (by omega)]

theorem arrayIn_put {number : Nat} (positive : pages.pageSize ≠ 0)
    (exact : bytes.length = pages.pageSize) :
    pages.arrayIn (pages.put directory number bytes) =
      (pages.arrayIn directory).put number bytes := by
  refine PageArray.ext (wholePages_put positive exact) (funext fun other => ?_)
  apply List.ext_getElem?
  intro index
  change _ = (if other = number then bytes else (pages.arrayIn directory).page other)[index]?
  rw [arrayIn_getElem?, Directory.byteAt?, content_put, getElem?_overlay_getD, exact]
  by_cases within : index < pages.pageSize
  · rw [if_pos within]
    by_cases same : other = number
    · subst same
      rw [if_pos rfl, if_pos ⟨Nat.le_add_right _ _, by omega⟩, Nat.add_sub_cancel_left,
        List.getElem?_eq_getElem (exact.symm ▸ within)]
      rfl
    · rw [if_neg same, arrayIn_getElem?, if_pos within, if_neg]
      · rfl
      · rintro ⟨above, below⟩
        exact not_spans_other within same pages.file ⟨rfl, above, by rwa [Nat.succ_mul]⟩
  · rw [if_neg within]
    by_cases same : other = number
    · rw [if_pos same, List.getElem?_eq_none (by omega)]
    · rw [if_neg same, arrayIn_getElem?, if_neg within]

/-! ### One call after another -/

theorem wholePages_le_perform (call : PageCall) :
    pages.wholePages directory ≤ pages.wholePages (pages.perform directory call).2 := by
  apply Nat.div_le_div_right
  cases call with
  | read number room =>
      rw [perform]
      cases pages.read directory number room <;> exact Nat.le_refl _
  | write number bytes =>
      rw [perform]
      cases written : pages.write directory number bytes with
      | error error => exact Nat.le_refl _
      | ok after => exact length_le_write written pages.file
  | allocate =>
      rw [perform]
      cases allocated : pages.allocate directory with
      | error failure => exact Nat.le_refl _
      | ok result => exact size_le_allocate allocated

theorem wholePages_le_performAll (calls : List PageCall) :
    pages.wholePages directory ≤ pages.wholePages (pages.performAll directory calls).2 := by
  induction calls generalizing directory with
  | nil => exact Nat.le_refl _
  | cons call calls ih => exact Nat.le_trans (wholePages_le_perform call) ih

theorem perform_arrayIn (positive : pages.pageSize ≠ 0)
    (countable : pages.wholePages directory < UInt32.size) (call : PageCall) :
    (pages.arrayIn directory).perform pages.pageSize call =
      ((pages.perform directory call).1, pages.arrayIn (pages.perform directory call).2) := by
  have count : (pages.arrayIn directory).count = pages.wholePages directory := rfl
  cases call with
  | read number room =>
      rw [perform, PageArray.perform, count]
      by_cases fits : room = pages.pageSize
      · subst fits
        rw [if_neg (not_not_intro rfl), read_eq positive countable]
        by_cases inside : number.toNat < pages.wholePages directory
        · rw [if_pos inside, if_pos inside, page_arrayIn inside]
        · rw [if_neg inside, if_neg inside]
      · rw [if_pos fits, read, if_pos fits]
  | write number bytes =>
      rw [perform, PageArray.perform]
      by_cases exact : bytes.length = pages.pageSize
      · rw [if_neg (not_not_intro exact), write_eq exact, arrayIn_put positive exact]
      · rw [if_pos exact, write, if_pos exact]
  | allocate =>
      rw [perform, PageArray.perform, count, allocate_eq positive countable]
      by_cases long : longestBuffer < pages.pageSize
      · rw [if_pos long, if_pos long]
      · rw [if_neg long, if_neg long, arrayIn_put positive List.length_replicate]

theorem performAll_arrayIn (positive : pages.pageSize ≠ 0) (calls : List PageCall)
    (countable : pages.wholePages (pages.performAll directory calls).2 < UInt32.size) :
    (pages.arrayIn directory).performAll pages.pageSize calls =
      ((pages.performAll directory calls).1,
        pages.arrayIn (pages.performAll directory calls).2) := by
  induction calls generalizing directory with
  | nil => rfl
  | cons call calls ih =>
      -- no call shortens the file, so its pages are countable at every earlier point
      have now : pages.wholePages directory < UInt32.size :=
        Nat.lt_of_le_of_lt (wholePages_le_performAll (call :: calls)) countable
      have rest := @ih (pages.perform directory call).2 countable
      simp only [PageArray.performAll, perform_arrayIn positive now, rest]
      rfl

/-- While its pages can be counted, a page file answers any sequence of calls as an array of pages
would, ends up holding that array's final content, and is `Lawful`. -/
theorem acts_as_array (positive : pages.pageSize ≠ 0) (directory : Directory)
    (calls : List PageCall)
    (countable : pages.wholePages (pages.performAll directory calls).2 < UInt32.size) :
    (pages.arrayIn directory).performAll pages.pageSize calls =
        ((pages.performAll directory calls).1,
          pages.arrayIn (pages.performAll directory calls).2) ∧
      pages.Lawful (pages.performAll directory calls).2 :=
  ⟨performAll_arrayIn positive calls countable, lawful positive countable⟩

def threeBytes : Directory := (Directory.empty "" []).store 7 (.ofList [1, 2, 3])

def errands : List PageCall :=
  [.read 1 2, .write 3 [8, 9], .read 1 2, .write 0 [4], .allocate, .read 4 2, .read 0 2]

theorem acts_as_array_small :
    (performAll ⟨7, 2⟩ threeBytes errands).1 =
        [.error (.refused (.pageOutOfRange 1 1)), .ok .written, .ok (.bytes [3, 0]),
          .error (.refused (.corrupt (.bufferSize 2 1))), .ok (.allocated 4),
          .ok (.bytes [0, 0]), .ok (.bytes [1, 2])] ∧
      ((performAll ⟨7, 2⟩ threeBytes errands).2.content 7).toList =
        [1, 2, 3, 0, 0, 0, 8, 9, 0, 0] ∧
      ((arrayIn ⟨7, 2⟩ threeBytes).performAll 2 errands).1 =
        (performAll ⟨7, 2⟩ threeBytes errands).1 ∧
      Lawful ⟨7, 2⟩ (performAll ⟨7, 2⟩ threeBytes errands).2 := by
  obtain ⟨run, lawful⟩ := @acts_as_array ⟨7, 2⟩ (by decide) threeBytes errands
    (by decide +kernel)
  exact ⟨rfl, rfl, congrArg Prod.fst run, lawful⟩

end PageFile

end RecordStore
