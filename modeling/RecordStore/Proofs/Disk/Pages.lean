import RecordStore.Disk.PageFile

set_option autoImplicit false

/-! Reading and writing whole pages. Writing a page, or the next one, changes the bytes of that page
only. -/

namespace RecordStore

theorem getElem?_overlay {content : List UInt8} {offset : Nat} (bytes : List UInt8)
    (inside : offset ≤ content.length) (index : Nat) :
    (overlay content offset bytes)[index]? =
      if offset ≤ index ∧ index < offset + bytes.length then bytes[index - offset]?
      else content[index]? := by
  cases bytes with
  | nil =>
      have outside : ¬ (offset ≤ index ∧ index < offset + ([] : List UInt8).length) := by
        rw [List.length_nil]
        omega
      rw [if_neg outside]
      rfl
  | cons byte bytes =>
      have front : (content.take offset).length = offset := List.length_take_of_le inside
      have gap : offset - content.length = 0 := by omega
      simp only [overlay, gap, List.replicate_zero, List.append_nil]
      by_cases before : index < offset
      · rw [if_neg (by omega), List.append_assoc,
          List.getElem?_append_left (by rw [front]; exact before), List.getElem?_take_of_lt before]
      · rw [List.append_assoc, List.getElem?_append_right (by rw [front]; omega), front]
        by_cases within : index < offset + (byte :: bytes).length
        · rw [if_pos ⟨by omega, within⟩, List.getElem?_append_left (by omega)]
        · rw [if_neg (by omega), List.getElem?_append_right (by omega), List.getElem?_drop]
          congr 1
          omega

theorem length_overlay {content : List UInt8} {offset : Nat} {bytes : List UInt8}
    (reached : offset ≤ content.length ∨ bytes ≠ []) :
    (overlay content offset bytes).length = max content.length (offset + bytes.length) := by
  cases bytes with
  | nil =>
      have inside := reached.resolve_right (not_not_intro rfl)
      rw [List.length_nil]
      change content.length = _
      omega
  | cons byte bytes =>
      simp only [overlay, List.length_append, List.length_take, List.length_replicate,
        List.length_drop]
      omega

/-- `overlay` keeps the bytes outside, also where the overlaid bytes start past the end. -/
theorem getElem?_overlay_outside {content bytes : List UInt8} {offset index : Nat} {byte : UInt8}
    (present : content[index]? = some byte)
    (outside : ¬ (offset ≤ index ∧ index < offset + bytes.length)) :
    (overlay content offset bytes)[index]? = some byte := by
  obtain ⟨inside, -⟩ := List.getElem?_eq_some_iff.mp present
  by_cases before : index < offset
  · cases bytes with
    | nil => exact present
    | cons first others =>
        have kept : index < (content.take offset).length := by
          rw [List.length_take]
          omega
        rw [overlay, List.append_assoc, List.append_assoc, List.getElem?_append_left kept,
          List.getElem?_take, if_pos before]
        · exact present
        · exact List.cons_ne_nil first others
  · rw [getElem?_overlay bytes (by omega), if_neg outside]
    exact present

/-- `overlay` has the overlaid bytes at their offset, also past the end. -/
theorem getElem?_overlay_inside (content bytes : List UInt8) (offset : Nat) {index : Nat}
    (inside : index < bytes.length) :
    (overlay content offset bytes)[offset + index]? = bytes[index]? := by
  cases bytes with
  | nil => cases inside
  | cons byte bytes =>
      have front : (content.take offset ++ List.replicate (offset - content.length) 0).length =
          offset := by
        rw [List.length_append, List.length_take, List.length_replicate]
        omega
      rw [overlay, List.append_assoc, List.getElem?_append_right (by omega), front,
        Nat.add_sub_cancel_left, List.getElem?_append_left inside]
      exact List.cons_ne_nil byte bytes

namespace Directory

def byteAt? (directory : Directory) (file : FileId) (offset : Nat) : Option UInt8 :=
  (directory.content file).toList[offset]?

theorem content_store (directory : Directory) (file other : FileId) (content : Content) :
    (directory.store file content).content other =
      if file = other then content else directory.content other := by
  unfold Directory.content store
  rw [Std.ExtTreeMap.getD_insert]
  by_cases same : file = other
  · rw [if_pos same, if_pos (Std.LawfulEqCmp.compare_eq_iff_eq.mpr same)]
  · rw [if_neg same, if_neg fun equal => same (Std.LawfulEqCmp.compare_eq_iff_eq.mp equal)]

end Directory

namespace PageFile

def wholePages (pages : PageFile) (directory : Directory) : Nat :=
  pages.size directory / pages.pageSize

def bytesAt (pages : PageFile) (directory : Directory) (number : Nat) : List UInt8 :=
  (directory.content pages.file).slice (number * pages.pageSize) pages.pageSize

def put (pages : PageFile) (directory : Directory) (number : Nat) (bytes : List UInt8) :
    Directory :=
  directory.store pages.file
    ((directory.content pages.file).write (number * pages.pageSize) bytes)

variable {pages : PageFile} {directory : Directory}

theorem bytesAt_getElem? (number index : Nat) :
    (pages.bytesAt directory number)[index]? =
      if index < pages.pageSize then
        (directory.content pages.file).toList[number * pages.pageSize + index]?
      else none := by
  rw [bytesAt, Content.slice_eq, List.getElem?_take, List.getElem?_drop]

theorem size_eq_length : pages.size directory = (directory.content pages.file).toList.length :=
  (Content.length_toList _).symm

theorem whole_le_size {number : Nat} (whole : number ≤ pages.wholePages directory) :
    number * pages.pageSize ≤ pages.size directory :=
  Nat.le_trans (Nat.mul_le_mul_right _ whole) (Nat.div_mul_le_self _ _)

theorem length_bytesAt {number : Nat} (whole : number < pages.wholePages directory) :
    (pages.bytesAt directory number).length = pages.pageSize := by
  have inside : (number + 1) * pages.pageSize ≤ pages.size directory := whole_le_size whole
  rw [Nat.succ_mul, size_eq_length] at inside
  rw [bytesAt, Content.slice_eq, List.length_take, List.length_drop]
  omega

theorem count_eq (positive : pages.pageSize ≠ 0) :
    pages.count directory = .ok (UInt32.ofNat (pages.wholePages directory)) := by
  rw [count, if_neg positive]
  rfl

theorem read_eq (positive : pages.pageSize ≠ 0)
    (countable : pages.wholePages directory < UInt32.size) (number : UInt32) :
    pages.read directory number pages.pageSize =
      if number.toNat < pages.wholePages directory then
        .ok (pages.bytesAt directory number.toNat)
      else
        .error (.refused
          (.pageOutOfRange number (UInt32.ofNat (pages.wholePages directory)))) := by
  have exact : (UInt32.ofNat (pages.wholePages directory)).toNat = pages.wholePages directory :=
    UInt32.toNat_ofNat_of_lt' countable
  rw [read, if_neg (not_not_intro rfl), count_eq positive]
  simp only [UInt32.le_iff_toNat_le, exact]
  by_cases inside : number.toNat < pages.wholePages directory
  · rw [if_pos inside, if_neg (Nat.not_le.mpr inside)]
    rfl
  · rw [if_neg inside, if_pos (Nat.le_of_not_lt inside)]

/-- A page can be read iff its number is below `count`, whatever `wholePages` is. -/
theorem read_ok_iff {number : UInt32} {bytes : List UInt8} :
    pages.read directory number pages.pageSize = .ok bytes ↔
      pages.pageSize ≠ 0 ∧ number < UInt32.ofNat (pages.wholePages directory) ∧
        pages.bytesAt directory number.toNat = bytes := by
  rw [read, if_neg (not_not_intro rfl)]
  by_cases none : pages.pageSize = 0
  · rw [count, if_pos none]
    exact ⟨nofun, fun all => absurd none all.1⟩
  · rw [count_eq none]
    simp only
    by_cases outside : UInt32.ofNat (pages.wholePages directory) ≤ number
    · rw [if_pos outside]
      exact ⟨nofun, fun all => absurd all.2.1 (UInt32.not_lt.mpr outside)⟩
    · rw [if_neg outside, Except.ok.injEq]
      exact ⟨fun same => ⟨none, UInt32.not_le.mp outside, same⟩, fun all => all.2.2⟩

theorem toNat_lt_of_lt_count {number : UInt32} {count : Nat}
    (inside : number < UInt32.ofNat count) : number.toNat < count := by
  rw [UInt32.lt_iff_toNat_lt, UInt32.toNat_ofNat'] at inside
  exact Nat.lt_of_lt_of_le inside (Nat.mod_le _ _)

theorem write_eq {number : UInt32} {bytes : List UInt8} (exact : bytes.length = pages.pageSize) :
    pages.write directory number bytes = .ok (pages.put directory number.toNat bytes) := by
  rw [write, if_neg (not_not_intro exact)]
  rfl

theorem write_ok_iff {number : UInt32} {bytes : List UInt8} {after : Directory} :
    pages.write directory number bytes = .ok after ↔
      bytes.length = pages.pageSize ∧ after = pages.put directory number.toNat bytes := by
  by_cases sized : bytes.length = pages.pageSize
  · rw [write_eq sized, Except.ok.injEq, eq_comm]
    exact (and_iff_right sized).symm
  · rw [write, if_pos sized]
    exact ⟨nofun, fun both => absurd both.1 sized⟩

theorem allocate_eq (positive : pages.pageSize ≠ 0)
    (countable : pages.wholePages directory < UInt32.size) :
    pages.allocate directory =
      if longestBuffer < pages.pageSize then .error (.broken .capacityOverflow)
      else .ok (UInt32.ofNat (pages.wholePages directory),
        pages.put directory (pages.wholePages directory) (List.replicate pages.pageSize 0)) := by
  have exact : (UInt32.ofNat (pages.wholePages directory)).toNat = pages.wholePages directory :=
    UInt32.toNat_ofNat_of_lt' countable
  rw [allocate, count_eq positive]
  simp only [write_eq List.length_replicate, exact]

/-! ### Writing a page -/

def Spans (pages : PageFile) (number : Nat) (file : FileId) (offset : Nat) : Prop :=
  pages.file = file ∧ number * pages.pageSize ≤ offset ∧ offset < (number + 1) * pages.pageSize

/-- Distinct pages have no byte in common. -/
theorem not_spans_other {number other index : Nat} (within : index < pages.pageSize)
    (different : other ≠ number) (file : FileId) :
    ¬ pages.Spans number file (other * pages.pageSize + index) := by
  rintro ⟨-, above, below⟩
  rcases Nat.lt_or_gt_of_ne different with before | behind
  · have step : (other + 1) * pages.pageSize ≤ number * pages.pageSize :=
      Nat.mul_le_mul_right _ before
    rw [Nat.succ_mul] at step
    omega
  · have step : (number + 1) * pages.pageSize ≤ other * pages.pageSize :=
      Nat.mul_le_mul_right _ behind
    omega

theorem content_put_other {other : FileId} (number : Nat) (bytes : List UInt8)
    (apart : pages.file ≠ other) :
    (pages.put directory number bytes).content other = directory.content other := by
  rw [put, Directory.content_store, if_neg apart]

theorem content_put (number : Nat) (bytes : List UInt8) :
    ((pages.put directory number bytes).content pages.file).toList =
      overlay (directory.content pages.file).toList (number * pages.pageSize) bytes := by
  rw [put, Directory.content_store, if_pos rfl, Content.toList_write]

theorem size_put {number : Nat} {bytes : List UInt8} (exact : bytes.length = pages.pageSize) :
    pages.size (pages.put directory number bytes) =
      max (pages.size directory) ((number + 1) * pages.pageSize) := by
  have reached : number * pages.pageSize ≤ (directory.content pages.file).toList.length ∨
      bytes ≠ [] := by
    cases bytes with
    | nil =>
        rw [← exact]
        exact .inl (Nat.zero_le _)
    | cons byte bytes => exact .inr (List.cons_ne_nil byte bytes)
  rw [size_eq_length, content_put, length_overlay reached, size_eq_length, exact, Nat.succ_mul]

theorem wholePages_put {number : Nat} {bytes : List UInt8} (positive : pages.pageSize ≠ 0)
    (exact : bytes.length = pages.pageSize) :
    pages.wholePages (pages.put directory number bytes) =
      max (pages.wholePages directory) (number + 1) := by
  have some : 0 < pages.pageSize := Nat.pos_of_ne_zero positive
  rw [wholePages, size_put exact]
  by_cases last : (number + 1) * pages.pageSize ≤ pages.size directory
  · have below : number + 1 ≤ pages.wholePages directory := (Nat.le_div_iff_mul_le some).mpr last
    rw [Nat.max_eq_left last, Nat.max_eq_left below]
    rfl
  · have above : pages.wholePages directory < number + 1 :=
      (Nat.div_lt_iff_lt_mul some).mpr (Nat.lt_of_not_le last)
    rw [Nat.max_eq_right (Nat.le_of_not_le last), Nat.max_eq_right (Nat.le_of_lt above),
      Nat.mul_div_cancel _ some]

theorem bytesAt_put_same {number : Nat} {bytes : List UInt8}
    (exact : bytes.length = pages.pageSize) :
    pages.bytesAt (pages.put directory number bytes) number = bytes := by
  apply List.ext_getElem?
  intro index
  rw [bytesAt_getElem?, content_put, ← exact]
  by_cases inside : index < bytes.length
  · rw [if_pos inside]
    exact getElem?_overlay_inside _ _ _ inside
  · rw [if_neg inside, List.getElem?_eq_none (Nat.le_of_not_lt inside)]

theorem bytesAt_put_other {number other : Nat} {bytes : List UInt8}
    (exact : bytes.length = pages.pageSize) (whole : number ≤ pages.wholePages directory)
    (different : other ≠ number) :
    pages.bytesAt (pages.put directory number bytes) other = pages.bytesAt directory other := by
  have inside := whole_le_size whole
  rw [size_eq_length] at inside
  apply List.ext_getElem?
  intro index
  rw [bytesAt_getElem?, bytesAt_getElem?, content_put, getElem?_overlay bytes inside, exact]
  by_cases within : index < pages.pageSize
  · rw [if_pos within, if_pos within, if_neg]
    rintro ⟨above, below⟩
    exact not_spans_other within different pages.file ⟨rfl, above, by rwa [Nat.succ_mul]⟩
  · rw [if_neg within, if_neg within]

/-- `write` changes no byte of another page. -/
theorem byteAt?_write {after : Directory} {number : UInt32} {bytes : List UInt8} {file : FileId}
    {offset : Nat} {byte : UInt8} (written : pages.write directory number bytes = .ok after)
    (present : directory.byteAt? file offset = some byte)
    (outside : ¬ pages.Spans number.toNat file offset) :
    after.byteAt? file offset = some byte := by
  obtain ⟨sized, rfl⟩ := write_ok_iff.mp written
  rw [put, Directory.byteAt?, Directory.content_store]
  by_cases same : pages.file = file
  · rw [if_pos same, Content.toList_write]
    subst same
    apply getElem?_overlay_outside present
    rintro ⟨above, below⟩
    refine outside ⟨rfl, above, ?_⟩
    rw [sized] at below
    rwa [Nat.add_mul, Nat.one_mul]
  · rw [if_neg same]
    exact present

theorem bytesAt_write_same {after : Directory} {number : UInt32} {bytes : List UInt8}
    (written : pages.write directory number bytes = .ok after) :
    pages.bytesAt after number.toNat = bytes := by
  obtain ⟨sized, rfl⟩ := write_ok_iff.mp written
  exact bytesAt_put_same sized

theorem content_write_other {after : Directory} {number : UInt32} {bytes : List UInt8}
    {file : FileId} (written : pages.write directory number bytes = .ok after)
    (different : pages.file ≠ file) : after.content file = directory.content file := by
  obtain ⟨-, rfl⟩ := write_ok_iff.mp written
  exact content_put_other number.toNat bytes different

theorem wholePages_write {after : Directory} {number : UInt32} {bytes : List UInt8}
    (positive : pages.pageSize ≠ 0) (written : pages.write directory number bytes = .ok after) :
    pages.wholePages after = max (pages.wholePages directory) (number.toNat + 1) := by
  obtain ⟨sized, rfl⟩ := write_ok_iff.mp written
  exact wholePages_put positive sized

/-- A whole page keeps its bytes when another one is written. -/
theorem bytesAt_write_kept {after : Directory} {number : UInt32} {bytes : List UInt8} {other : Nat}
    (written : pages.write directory number bytes = .ok after)
    (whole : (pages.bytesAt directory other).length = pages.pageSize)
    (different : other ≠ number.toNat) :
    pages.bytesAt after other = pages.bytesAt directory other := by
  apply List.ext_getElem?
  intro index
  rw [bytesAt_getElem?, bytesAt_getElem?]
  by_cases inside : index < pages.pageSize
  · have present := List.getElem?_eq_getElem (whole ▸ inside)
    rw [bytesAt_getElem?, if_pos inside] at present
    rw [if_pos inside, if_pos inside, present]
    exact byteAt?_write written present (not_spans_other inside different pages.file)
  · rw [if_neg inside, if_neg inside]

theorem length_le_overlay (content : List UInt8) (offset : Nat) (bytes : List UInt8) :
    content.length ≤ (overlay content offset bytes).length := by
  cases bytes with
  | nil => exact Nat.le_refl _
  | cons byte bytes =>
      simp only [overlay, List.length_append, List.length_take, List.length_replicate,
        List.length_drop]
      omega

/-- `write` makes no file shorter. -/
theorem length_le_write {number : UInt32} {bytes : List UInt8} {after : Directory}
    (written : pages.write directory number bytes = .ok after) (file : FileId) :
    (directory.content file).length ≤ (after.content file).length := by
  obtain ⟨-, rfl⟩ := write_ok_iff.mp written
  rw [put, Directory.content_store]
  by_cases same : pages.file = file
  · rw [if_pos same, ← Content.length_toList, ← Content.length_toList, Content.toList_write, same]
    exact length_le_overlay _ _ _
  · exact Nat.le_of_eq (by rw [if_neg same])

theorem write_of_allocate {number : UInt32} {after : Directory}
    (allocated : pages.allocate directory = .ok (number, after)) :
    pages.pageSize ≠ 0 ∧ number = UInt32.ofNat (pages.wholePages directory) ∧
      pages.write directory number (List.replicate pages.pageSize 0) = .ok after := by
  unfold allocate at allocated
  by_cases none : pages.pageSize = 0
  · rw [count, if_pos none] at allocated
    cases allocated
  · rw [count_eq none] at allocated
    simp only at allocated
    split at allocated
    · cases allocated
    · split at allocated
      · cases allocated
      · next written =>
          cases allocated
          exact ⟨none, rfl, written⟩

theorem size_le_allocate {number : UInt32} {after : Directory}
    (allocated : pages.allocate directory = .ok (number, after)) :
    pages.size directory ≤ pages.size after :=
  length_le_write (write_of_allocate allocated).2.2 pages.file

end PageFile

end RecordStore
