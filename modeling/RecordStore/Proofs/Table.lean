import RecordStore.Proofs.Disk.Pages
import RecordStore.Proofs.Page.Codec
import RecordStore.Table

set_option autoImplicit false

/-! Reading and writing the pages of a table. The result of `readPage` depends on the bytes of the
page and on the number of pages only. -/

namespace RecordStore

namespace Table

structure Usable (table : Table) : Prop where
  positive : table.pages.pageSize ≠ 0
  bounded : table.pages.pageSize ≤ longestBuffer

def written (table : Table) (directory : Directory) (page : PageId) : Except Failure Slots :=
  (table.readPage directory page).map Page.contents

variable {table : Table} {directory : Directory} {page : PageId}

theorem checkOwner_of_eq (owned : page.table = table.id) : table.checkOwner page = .ok () := by
  rw [checkOwner, if_pos owned]

theorem readPage_foreign (foreign : page.table ≠ table.id) :
    table.readPage directory page = .error (.refused (.foreignTable table.id page.table)) := by
  rw [readPage, checkOwner, if_neg foreign]

theorem readPage_eq (usable : table.Usable)
    (countable : table.pages.wholePages directory < UInt32.size) (owned : page.table = table.id) :
    table.readPage directory page =
      if page.number.toNat < table.pages.wholePages directory then
        match Page.decode page table.schema (table.pages.bytesAt directory page.number.toNat) with
        | .error error => .error (.refused error)
        | .ok page => .ok page
      else .error (.refused (.missingPage page)) := by
  have bounded : ¬ longestBuffer < table.pageSize := Nat.not_lt.mpr usable.bounded
  rw [readPage, checkOwner_of_eq owned]
  simp only [if_neg bounded]
  rw [pageSize, PageFile.read_eq usable.positive countable]
  by_cases inside : page.number.toNat < table.pages.wholePages directory
  · cases decoded : Page.decode page table.schema
        (table.pages.bytesAt directory page.number.toNat) <;>
      simp only [if_pos inside, decoded]
  · rw [if_neg inside, if_neg inside]

theorem readPage_congr {other : Directory}
    (same : other.content table.pages.file = directory.content table.pages.file) :
    table.readPage other page = table.readPage directory page := by
  have sizes : table.pages.size other = table.pages.size directory := by
    rw [PageFile.size, PageFile.size, same]
  have reads : ∀ number, table.pages.read other number table.pageSize =
      table.pages.read directory number table.pageSize := by
    intro number
    rw [PageFile.read, PageFile.read, PageFile.count, PageFile.count, sizes, same]
  rw [readPage, readPage, reads]

/-- When a page can be read, and what is found. -/
theorem readPage_ok_iff {found : Page} :
    table.readPage directory page = .ok found ↔
      page.table = table.id ∧ table.Usable ∧
        page.number < UInt32.ofNat (table.pages.wholePages directory) ∧
        Page.decode page table.schema (table.pages.bytesAt directory page.number.toNat) =
          .ok found := by
  constructor
  · intro found
    by_cases owned : page.table = table.id
    · rw [readPage, checkOwner_of_eq owned] at found
      simp only at found
      split at found
      · cases found
      · next bounded =>
          split at found
          · cases found
          · cases found
          · next read =>
              obtain ⟨positive, inside, rfl⟩ := PageFile.read_ok_iff.mp read
              split at found
              · cases found
              · next decoded =>
                  cases found
                  exact ⟨owned, ⟨positive, Nat.le_of_not_lt bounded⟩, inside, decoded⟩
    · rw [readPage_foreign owned] at found
      cases found
  · rintro ⟨owned, usable, inside, decoded⟩
    have read : table.pages.read directory page.number table.pageSize =
        .ok (table.pages.bytesAt directory page.number.toNat) :=
      PageFile.read_ok_iff.mpr ⟨usable.positive, inside, rfl⟩
    rw [readPage, checkOwner_of_eq owned]
    simp only [if_neg (Nat.not_lt.mpr usable.bounded : ¬ longestBuffer < table.pageSize), read,
      decoded]

theorem usable_of_readPage {found : Page} (read : table.readPage directory page = .ok found) :
    table.Usable :=
  (readPage_ok_iff.mp read).2.1

theorem readPage_ok {found : Page} (read : table.readPage directory page = .ok found) :
    page.table = table.id ∧ page.number.toNat < table.pages.wholePages directory ∧
      found.Loaded page table.schema (table.pages.bytesAt directory page.number.toNat) := by
  obtain ⟨owned, -, inside, decoded⟩ := readPage_ok_iff.mp read
  exact ⟨owned, PageFile.toNat_lt_of_lt_count inside, Page.loaded_of_decode decoded⟩

theorem writePage_ok_iff {content : Page} {after : Directory} :
    table.writePage directory content = .ok after ↔
      content.id.table = table.id ∧
        table.pages.write directory content.id.number content.encode = .ok after := by
  rw [writePage, checkOwner]
  by_cases owned : content.id.table = table.id
  · rw [if_pos owned]
    exact ⟨fun written => ⟨owned, written⟩, fun both => both.2⟩
  · rw [if_neg owned]
    exact ⟨nofun, fun both => absurd both.1 owned⟩

theorem usable_of_slotsPerPage {slots : Nat} (counted : table.slotsPerPage = .ok slots)
    (some : slots ≠ 0) :
    table.Usable ∧ slots = Layout.slotCount table.pageSize table.schema.width := by
  unfold slotsPerPage Layout.checkedSlotCount at counted
  cases bits : multiply table.pageSize 8 with
  | error fault => simp [bits] at counted
  | ok product =>
      cases widths : multiply table.schema.width 8 with
      | error fault => simp [bits, widths] at counted
      | ok width =>
          simp only [bits, widths, Except.ok.injEq] at counted
          refine ⟨⟨fun zero => some ?_, ?_⟩, counted.symm⟩
          · rw [← counted, Layout.slotCount, pageSize, zero, Nat.zero_mul, Nat.zero_div]
          · unfold multiply at bits
            split at bits
            · next less =>
                simp only [wordLimit, pageSize] at less
                simp only [longestBuffer]
                omega
            · cases bits

section Put

variable {number : Nat} {bytes : List UInt8}

theorem readPage_put_other (usable : table.Usable)
    (exact : bytes.length = table.pages.pageSize)
    (whole : number ≤ table.pages.wholePages directory)
    (countable : max (table.pages.wholePages directory) (number + 1) < UInt32.size)
    (different : page.number.toNat ≠ number) :
    table.readPage (table.pages.put directory number bytes) page =
      table.readPage directory page := by
  by_cases owned : page.table = table.id
  · have count : table.pages.wholePages (table.pages.put directory number bytes) =
        max (table.pages.wholePages directory) (number + 1) :=
      PageFile.wholePages_put usable.positive exact
    have inside : page.number.toNat < max (table.pages.wholePages directory) (number + 1) ↔
        page.number.toNat < table.pages.wholePages directory := by omega
    rw [readPage_eq usable (by omega) owned, readPage_eq usable (by omega) owned, count,
      PageFile.bytesAt_put_other exact whole different]
    simp only [inside]
  · rw [readPage_foreign owned, readPage_foreign owned]

theorem readPage_put_same (usable : table.Usable)
    (exact : bytes.length = table.pages.pageSize)
    (countable : max (table.pages.wholePages directory) (number + 1) < UInt32.size)
    (owned : page.table = table.id) (here : page.number.toNat = number) :
    table.readPage (table.pages.put directory number bytes) page =
      match Page.decode page table.schema bytes with
      | .error error => .error (.refused error)
      | .ok page => .ok page := by
  have count : table.pages.wholePages (table.pages.put directory number bytes) =
      max (table.pages.wholePages directory) (number + 1) :=
    PageFile.wholePages_put usable.positive exact
  rw [readPage_eq usable (by omega) owned, count, if_pos (by omega), here,
    PageFile.bytesAt_put_same exact]

end Put

end Table

end RecordStore
