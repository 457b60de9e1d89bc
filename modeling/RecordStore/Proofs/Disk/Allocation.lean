import RecordStore.Proofs.Disk.Array

set_option autoImplicit false

/-! `allocate` appends a page of zeros as long as the pages and one more can be counted. Past that
`count` starts again from zero, and an existing page is overwritten. -/

namespace RecordStore

namespace PageFile

/-- A page of zeros has come behind all whole pages, and `count` has grown by it. -/
structure Appends (pages : PageFile) (directory : Directory) (number : UInt32)
    (after : Directory) : Prop where
  allocated : pages.allocate directory = .ok (number, after)
  fresh : pages.wholePages directory ≤ number.toNat
  kept : ∀ offset, offset < pages.wholePages directory * pages.pageSize →
    after.byteAt? pages.file offset = directory.byteAt? pages.file offset
  zeros : pages.bytesAt after number.toNat = List.replicate pages.pageSize 0
  counted : ∃ count next, pages.count directory = .ok count ∧ pages.count after = .ok next ∧
    next.toNat = count.toNat + 1

/-- A page of zeros has been written over one of the whole pages, and `count` is what it was. -/
structure Replaces (pages : PageFile) (directory : Directory) (number : UInt32)
    (after : Directory) : Prop where
  allocated : pages.allocate directory = .ok (number, after)
  there : number.toNat < pages.wholePages directory
  overwrites : pages.Overwrites directory number.toNat (List.replicate pages.pageSize 0) after
  size : pages.size after = pages.size directory
  counted : pages.count after = pages.count directory

variable {pages : PageFile} {directory after : Directory} {number : UInt32}

theorem allocate_overwrites (positive : pages.pageSize ≠ 0)
    (fits : pages.pageSize ≤ longestBuffer) (directory : Directory) :
    ∃ number after, pages.allocate directory = .ok (number, after) ∧
      number.toNat = pages.wholePages directory % UInt32.size ∧
      pages.Overwrites directory number.toNat (List.replicate pages.pageSize 0) after := by
  have written : pages.write directory (UInt32.ofNat (pages.wholePages directory))
      (List.replicate pages.pageSize 0) = .ok _ := write_eq List.length_replicate
  refine ⟨_, _, ?_, UInt32.toNat_ofNat', overwrites_of_write positive written⟩
  rw [allocate, count_eq positive]
  simp only [if_neg (Nat.not_lt.mpr fits), written]

theorem fits_of_allocate (allocated : pages.allocate directory = .ok (number, after)) :
    pages.pageSize ≤ longestBuffer := by
  unfold allocate at allocated
  split at allocated
  · cases allocated
  · split at allocated
    · cases allocated
    · next fits => exact Nat.le_of_not_lt fits

theorem Overwrites.kept_before {bytes : List UInt8}
    (overwrites : pages.Overwrites directory number.toNat bytes after)
    (behind : pages.wholePages directory ≤ number.toNat) {offset : Nat}
    (before : offset < pages.wholePages directory * pages.pageSize) :
    after.byteAt? pages.file offset = directory.byteAt? pages.file offset := by
  have inside : offset < (directory.content pages.file).toList.length := by
    rw [← size_eq_length]
    exact Nat.lt_of_lt_of_le before (whole_le_size (Nat.le_refl _))
  have present : directory.byteAt? pages.file offset =
      some (directory.content pages.file).toList[offset] := List.getElem?_eq_getElem inside
  rw [present]
  apply overwrites.kept pages.file offset _ present
  rintro ⟨-, above, -⟩
  exact Nat.lt_irrefl _
    (Nat.lt_of_lt_of_le before (Nat.le_trans (Nat.mul_le_mul_right _ behind) above))

theorem appends_of_countable (positive : pages.pageSize ≠ 0)
    (fits : pages.pageSize ≤ longestBuffer)
    (countable : pages.wholePages directory + 1 < UInt32.size) :
    ∃ number after, pages.Appends directory number after := by
  obtain ⟨number, after, allocated, same, overwrites⟩ :=
    allocate_overwrites positive fits directory
  rw [Nat.mod_eq_of_lt (Nat.lt_of_succ_lt countable)] at same
  refine ⟨number, after, allocated, Nat.le_of_eq same.symm, ?_, overwrites.page, ?_⟩
  · exact fun _ => overwrites.kept_before (Nat.le_of_eq same.symm)
  · have more : pages.wholePages after = pages.wholePages directory + 1 := by
      rw [overwrites.count, same]
      exact Nat.max_eq_left (Nat.le_succ _)
    refine ⟨_, _, count_eq positive, count_eq positive, ?_⟩
    rw [more, UInt32.toNat_ofNat_of_lt' countable,
      UInt32.toNat_ofNat_of_lt' (Nat.lt_of_succ_lt countable)]

/-- With `UInt32.size` pages `count` is zero. -/
theorem count_of_allocate_last (positive : pages.pageSize ≠ 0)
    (last : pages.wholePages directory + 1 = UInt32.size)
    (allocated : pages.allocate directory = .ok (number, after)) : pages.count after = .ok 0 := by
  obtain ⟨other, _, same, place, overwrites⟩ :=
    allocate_overwrites positive (fits_of_allocate allocated) directory
  rw [allocated, Except.ok.injEq, Prod.mk.injEq] at same
  obtain ⟨rfl, rfl⟩ := same
  have small : pages.wholePages directory < UInt32.size := last ▸ Nat.lt_succ_self _
  have more : pages.wholePages after = UInt32.size := by
    rw [overwrites.count, place, Nat.mod_eq_of_lt small, ← last]
    exact Nat.max_eq_left (Nat.le_succ _)
  rw [count_eq positive, more]
  rfl

theorem replaces_of_uncountable (positive : pages.pageSize ≠ 0)
    (fits : pages.pageSize ≤ longestBuffer)
    (uncountable : UInt32.size ≤ pages.wholePages directory) :
    ∃ number after, pages.Replaces directory number after := by
  obtain ⟨number, after, allocated, same, overwrites⟩ :=
    allocate_overwrites positive fits directory
  have there : number.toNat < pages.wholePages directory :=
    Nat.lt_of_lt_of_le number.toNat_lt_size uncountable
  refine ⟨number, after, allocated, there, overwrites, ?_, ?_⟩
  · rw [overwrites.size]
    exact Nat.max_eq_left (whole_le_size there)
  · rw [count_eq positive, count_eq positive, overwrites.count, Nat.max_eq_right there]

/-- `allocate` appends a counted page iff a buffer can hold it and fewer than `UInt32.size` pages
result. With exactly `UInt32.size` pages after it, `count` is zero; with as many before it, it
writes over one of them. -/
theorem allocate_appends_iff (positive : pages.pageSize ≠ 0) (directory : Directory) :
    ((∃ number after, pages.Appends directory number after) ↔
      pages.pageSize ≤ longestBuffer ∧ pages.wholePages directory + 1 < UInt32.size) ∧
    (pages.pageSize ≤ longestBuffer → pages.wholePages directory + 1 = UInt32.size →
      ∃ number after, pages.allocate directory = .ok (number, after) ∧
        pages.count after = .ok 0) ∧
    (pages.pageSize ≤ longestBuffer → UInt32.size ≤ pages.wholePages directory →
      ∃ number after, pages.Replaces directory number after) := by
  refine ⟨⟨?_, fun ⟨fits, countable⟩ => appends_of_countable positive fits countable⟩, ?_,
    replaces_of_uncountable positive⟩
  · rintro ⟨number, after, appends⟩
    refine ⟨fits_of_allocate appends.allocated, ?_⟩
    have small : pages.wholePages directory < UInt32.size :=
      Nat.lt_of_le_of_lt appends.fresh number.toNat_lt_size
    refine Nat.lt_of_le_of_ne small fun last => ?_
    obtain ⟨count, next, -, counted, more⟩ := appends.counted
    rw [count_of_allocate_last positive last appends.allocated, Except.ok.injEq] at counted
    rw [← counted] at more
    exact Nat.succ_ne_zero _ more.symm
  · intro fits last
    obtain ⟨number, after, allocated, -, -⟩ := allocate_overwrites positive fits directory
    exact ⟨number, after, allocated, count_of_allocate_last positive last allocated⟩

/-- Half a page behind a whole one is overwritten by the page that is allocated. -/
theorem allocate_appends_iff_small :
    (⟨7, 2⟩ : PageFile).pageSize ≠ 0 ∧
      (∃ number after, Appends ⟨7, 2⟩ threeBytes number after) ∧
      (allocate ⟨7, 2⟩ threeBytes).toOption.map (fun made => (made.1, (made.2.content 7).toList)) =
        some (1, [1, 2, 0, 0]) := by
  refine ⟨by decide, ?_, by decide +kernel⟩
  exact (@allocate_appends_iff ⟨7, 2⟩ (by decide) threeBytes).1.mpr (by decide +kernel)

/-- A page of eight sevens, and behind it as many pages of zeros as can be counted. -/
def longFile : Directory :=
  (Directory.empty "" []).store 7 ⟨[.bytes (List.replicate 8 7), .gap (4294967295 * 8)]⟩

/-- `allocate` writes its zeros over page 0. -/
theorem allocate_wipes_first :
    (⟨7, 8⟩ : PageFile).pageSize ≠ 0 ∧ (⟨7, 8⟩ : PageFile).pageSize ≤ longestBuffer ∧
      wholePages ⟨7, 8⟩ longFile = 4294967296 ∧
      bytesAt ⟨7, 8⟩ longFile 0 = List.replicate 8 7 ∧
      (∃ after, allocate ⟨7, 8⟩ longFile = .ok (0, after) ∧
        bytesAt ⟨7, 8⟩ after 0 = List.replicate 8 0) ∧
      ¬ ∃ number after, Appends ⟨7, 8⟩ longFile number after := by
  have many : wholePages ⟨7, 8⟩ longFile = 4294967296 := by decide +kernel
  refine ⟨by decide, by decide, many, by decide +kernel, ⟨_, rfl, by decide +kernel⟩, ?_⟩
  rintro ⟨number, after, appends⟩
  have fresh := appends.fresh
  rw [many] at fresh
  exact Nat.not_lt_of_le fresh number.toNat_lt_size

end PageFile

end RecordStore
