import Mathlib.Algebra.GroupWithZero.Nat
import RecordStore.Proofs.Command.Rows
import RecordStore.Proofs.Page.Edits

set_option autoImplicit false

/-! `info` counts the bits set on every page, `scan` lists rows under locks and through the cache.
Both give the same number of records, on each page and in total, for any bytes of the file. -/

namespace RecordStore

namespace Bare

def standsOn (page : PageId) (row : SeenRow) : Bool := row.1.any fun record => record.page == page

variable {bare : Bare} {page : PageId} {id : TableId}

theorem standsOn_of_shown {row : SeenRow} (member : row ∈ bare.shown page) (other : PageId) :
    standsOn other row = (page == other) := by
  obtain ⟨slot, placed⟩ := place_of_shown member
  rw [standsOn, placed]
  rfl

theorem countP_shown (bare : Bare) (page other : PageId) :
    (bare.shown page).countP (standsOn other) =
      if page = other then (bare.shown page).length else 0 := by
  have alike : ∀ row ∈ bare.shown page, standsOn other row = true ↔ page = other :=
    fun row member => by rw [standsOn_of_shown member, beq_iff_eq]
  split
  · next same => exact List.countP_eq_length.mpr fun row member => (alike row member).mpr same
  · next apart =>
      exact List.countP_eq_zero.mpr fun row member => apart ∘ (alike row member).mp

theorem countP_listing (bare : Bare) (id : TableId) {count number : Nat}
    (small : count ≤ UInt32.size) (finite : number < UInt32.size) :
    (bare.listing id count).countP (standsOn ⟨id, UInt32.ofNat number⟩) =
      if number < count then (bare.shown ⟨id, UInt32.ofNat number⟩).length else 0 := by
  induction count with
  | zero => rfl
  | succ count ih =>
      have same : (⟨id, UInt32.ofNat count⟩ : PageId) = ⟨id, UInt32.ofNat number⟩ ↔
          count = number := by
        constructor
        · intro pages
          have numbers := congrArg (fun page : PageId => page.number.toNat) pages
          rwa [UInt32.toNat_ofNat_of_lt' small, UInt32.toNat_ofNat_of_lt' finite] at numbers
        · rintro rfl
          rfl
      rw [listing_succ, List.countP_append, ih (Nat.le_of_succ_le small), countP_shown]
      simp only [same]
      by_cases here : count = number
      · subst here
        rw [if_neg (Nat.lt_irrefl _), if_pos rfl, if_pos (Nat.lt_succ_self _), Nat.zero_add]
      · have before : number < count + 1 ↔ number < count := by omega
        simp only [if_neg here, before, Nat.add_zero]

end Bare

namespace Page

variable {page : Page} {schema : Schema} {size : Nat}

theorem Sound.usedSlots_eq (sound : page.Sound schema size) :
    Command.usedSlots page = page.rows.length := by
  rw [Command.usedSlots, ← sound.freeCount_add_rows, Nat.add_sub_cancel_left]

theorem Sound.length_rows_eq (sound : page.Sound schema size) :
    page.rows.length = (Slots.rows page.id page.contents).length := by
  have seen := Store.map_seen_rows page.id 0 page.slots.toList fun slot row present => by
    rw [Nat.zero_add]
    refine (sound.fitting slot row ?_).2
    rw [row?_eq_getElem?, ← Array.getElem?_toList, present]
    rfl
  rw [Slots.rows, contents, ← seen, List.length_map]
  rfl

end Page

namespace Command

variable {table : Table} {directory : Directory}

/-! ### Lines about pages -/

def usedLine (slots number used : Nat) : String :=
  "  page " ++ sixPlaces number ++ ": " ++ toString used ++ "/" ++ toString slots ++ " used"

def Reads (table : Table) (directory : Directory) (slots number used : Nat) : Prop :=
  ∃ page, table.readPage directory (table.page (UInt32.ofNat number)) = .ok page ∧
    page.slotCount = slots ∧ usedSlots page = used

theorem pageLines_eq {slots : Nat} {used : Nat → Nat} {first length : Nat}
    (reads : ∀ number, first ≤ number → number < first + length →
      Reads table directory slots number (used number)) :
    pageLines table directory first length =
      ((List.range' first length).map fun number => usedLine slots number (used number),
        .ok ((List.range' first length).map used).sum) := by
  induction length generalizing first with
  | zero => rfl
  | succ length ih =>
      obtain ⟨page, read, slotsIs, usedIs⟩ := reads first (Nat.le_refl _) (by omega)
      have others := @ih (first + 1) fun number after before =>
        reads number (by omega) (by omega)
      rw [pageLines, read]
      simp only [others, slotsIs, usedIs]
      rfl

/-! ### A whole description -/

def heading (table : Table) (slots pages : Nat) : List String :=
  ["table:          " ++ table.id.text, "path:           " ++ table.path,
    "page size:      " ++ toString table.pageSize,
    "tuple size:     " ++ toString table.schema.width, "slots per page: " ++ toString slots,
    "pages:          " ++ toString pages]

def description (table : Table) (slots pages : Nat) (rows : List SeenRow) : List String :=
  heading table slots pages ++
    (List.range pages).map (fun number =>
      usedLine slots number (rows.countP (Bare.standsOn (table.page (UInt32.ofNat number))))) ++
    ["records:        " ++ toString rows.length]

theorem describeTable_eq {store : Store} {slots : Nat} {rows : List SeenRow}
    (positive : table.pageSize ≠ 0)
    (countable : table.pages.wholePages store.directory < UInt32.size)
    (counted : table.slotsPerPage = .ok slots)
    (reads : ∀ number, number < table.pages.wholePages store.directory →
      Reads table store.directory slots number
        (rows.countP (Bare.standsOn (table.page (UInt32.ofNat number)))))
    (total : ((List.range (table.pages.wholePages store.directory)).map fun number =>
      rows.countP (Bare.standsOn (table.page (UInt32.ofNat number)))).sum = rows.length) :
    describeTable table store =
      (description table slots (table.pages.wholePages store.directory) rows, .success, store) := by
  have count : table.pageCount store.directory =
      .ok (UInt32.ofNat (table.pages.wholePages store.directory)) := PageFile.count_eq positive
  have lines := @pageLines_eq table store.directory slots
    (fun number => rows.countP (Bare.standsOn (table.page (UInt32.ofNat number)))) 0
    (table.pages.wholePages store.directory) fun number _ before => reads number (by omega)
  rw [← List.range_eq_range', total] at lines
  rw [describeTable, count]
  simp only [counted, UInt32.toNat_ofNat_of_lt' countable, lines]
  rfl

section Listed

variable (countable : table.pages.wholePages directory < UInt32.size)

include countable

theorem countP_listedIn {number : Nat} (inside : number < table.pages.wholePages directory) :
    (listedIn table directory).countP (Bare.standsOn (table.page (UInt32.ofNat number))) =
      ((Store.opened directory 0 .standard (fun _ _ => 0) table).bare.shown
        (table.page (UInt32.ofNat number))).length := by
  have counts : (Store.opened directory 0 .standard (fun _ _ => 0) table).bare.counts table.id =
      table.pages.wholePages directory := Store.counts_of_table Store.known_opened
  rw [listedIn, Store.listed, counts]
  exact (Bare.countP_listing _ _ (Nat.le_of_lt countable) (Nat.lt_trans inside countable)).trans
    (if_pos inside)

theorem sum_listed :
    ((List.range (table.pages.wholePages directory)).map fun number =>
      (listedIn table directory).countP (Bare.standsOn (table.page (UInt32.ofNat number)))).sum =
      (listedIn table directory).length := by
  have counts : (Store.opened directory 0 .standard (fun _ _ => 0) table).bare.counts table.id =
      table.pages.wholePages directory := Store.counts_of_table Store.known_opened
  have total : (listedIn table directory).length =
      ((List.range (table.pages.wholePages directory)).map fun number =>
        ((Store.opened directory 0 .standard (fun _ _ => 0) table).bare.shown
          (table.page (UInt32.ofNat number))).length).sum := by
    rw [listedIn, Store.listed, counts, Bare.listing, List.length_flatMap]
    rfl
  rw [total]
  exact congrArg List.sum (List.map_congr_left fun number member =>
    countP_listedIn countable (List.mem_range.mp member))

/-- The slots taken on a page are as many as its listed rows. -/
theorem reads_listed (usable : table.Usable) (integral : table.schema.Integral) {number : Nat}
    (inside : number < table.pages.wholePages directory) :
    Reads table directory (Layout.slotCount table.pageSize table.schema.width) number
      ((listedIn table directory).countP (Bare.standsOn (table.page (UInt32.ofNat number)))) := by
  have exact : (UInt32.ofNat number).toNat = number :=
    UInt32.toNat_ofNat_of_lt' (Nat.lt_trans inside countable)
  have within : (table.page (UInt32.ofNat number)).number.toNat <
      table.pages.wholePages directory := by rwa [Table.page, exact]
  obtain ⟨page, read⟩ := Table.readPage_integral usable integral countable rfl within
  obtain ⟨-, -, loaded⟩ := Table.readPage_ok read
  refine ⟨page, read, ?_, ?_⟩
  · refine loaded.sound.slotsSize.trans ?_
    rw [PageFile.length_bytesAt within]
    rfl
  · have written : (Store.opened directory 0 .standard (fun _ _ => 0) table).bare.written
        (table.page (UInt32.ofNat number)) = .ok page.contents := by
      refine (Store.written_of_table Store.known_opened).trans ?_
      rw [Table.written]
      exact congrArg _ read
    have shown : (Store.opened directory 0 .standard (fun _ _ => 0) table).bare.shown
        (table.page (UInt32.ofNat number)) = Slots.rows page.id page.contents := by
      rw [Bare.shown, Bare.contents?, (Store.atRest_opened countable).undrafted, written,
        loaded.idIs]
      rfl
    rw [loaded.sound.usedSlots_eq, loaded.sound.length_rows_eq, countP_listedIn countable inside,
      shown]

end Listed

theorem width_intColumns (columns : Nat) : (intColumns columns).width = 4 * columns := by
  have widths (columns : Nat) : (List.replicate columns ColumnType.int).foldr
      (fun type total => type.width + total) 0 = 4 * columns := by
    induction columns with
    | zero => rfl
    | succ columns ih =>
        rw [List.replicate_succ, List.foldr_cons, ih, ColumnType.width]
        omega
  rw [Schema.width, intColumns, Schema.types_ofTypes, widths]

def Arguments.describing (arguments : Arguments) (pool : Nat) : Arguments :=
  { arguments with poolPages := pool, task := .info }

section Whole

variable {arguments : Arguments} {path canonical : String} {directory : Directory} {file : FileId}

theorem slotsPerPage_tableOf (small : 8 * arguments.pageSize < wordLimit)
    (bearable : 32 * arguments.columns < wordLimit) :
    (arguments.tableOf file canonical).slotsPerPage =
      .ok (Layout.slotCount arguments.pageSize (4 * arguments.columns)) := by
  have bits : multiply arguments.pageSize 8 = .ok (arguments.pageSize * 8) :=
    if_pos (by omega)
  have widths : multiply (4 * arguments.columns) 8 = .ok (4 * arguments.columns * 8) :=
    if_pos (by omega)
  change Layout.checkedSlotCount arguments.pageSize (intColumns arguments.columns).width = _
  rw [width_intColumns, Layout.checkedSlotCount, bits]
  simp only [widths]

/-- For every file and every pool size, `scan` lists the same rows, and `info` prints their total
and, for each page, how many of them stand on it. The bound on the columns is the memory for a
schema, 32 bytes a column. -/
theorem description_counts_listed (there : directory.open? path = .ok (file, canonical))
    (positive : 0 < arguments.pageSize) (small : 8 * arguments.pageSize < wordLimit)
    (bearable : 32 * arguments.columns < wordLimit)
    (countable : (arguments.tableOf file canonical).pages.wholePages directory < UInt32.size) :
    ∃ rows, Lists arguments path directory rows ∧
      ∀ pool, (arguments.describing pool).LaidOut →
        ((arguments.describing pool).run path directory).lines =
            description (arguments.tableOf file canonical)
              (Layout.slotCount arguments.pageSize (4 * arguments.columns))
              ((arguments.tableOf file canonical).pages.wholePages directory) rows ∧
          ((arguments.describing pool).run path directory).ending = .success := by
  refine ⟨_, lists_listedIn there positive small countable, fun pool laidOut => ?_⟩
  have usable : (arguments.tableOf file canonical).Usable := Arguments.usable_tableOf positive small
  have integral : (arguments.tableOf file canonical).schema.Integral :=
    integral_intColumns arguments.columns
  have slots := @slotsPerPage_tableOf arguments canonical file small bearable
  have described := @describeTable_eq (arguments.tableOf file canonical)
    ((arguments.describing pool).opened file canonical directory) _
    (listedIn (arguments.tableOf file canonical) directory) usable.positive countable slots
    (fun number inside => ?_) (sum_listed countable)
  · rw [Arguments.run_eq there laidOut nofun]
    change (describeTable (arguments.tableOf file canonical)
      ((arguments.describing pool).opened file canonical directory)).1 = _ ∧
        (describeTable (arguments.tableOf file canonical)
          ((arguments.describing pool).opened file canonical directory)).2.1 = _
    rw [described]
    exact ⟨rfl, rfl⟩
  · have reads := reads_listed countable usable integral inside
    rwa [show Layout.slotCount (arguments.tableOf file canonical).pageSize
      (arguments.tableOf file canonical).schema.width = _ from
        congrArg (Layout.slotCount _) (width_intColumns _)] at reads

end Whole

/-- Two pages and a half: one number with bits that belong to no slot, then two numbers, then four
bytes. -/
def raggedFolder : Directory :=
  ((Directory.empty "/d" []).add "t"
    (.ofList (Page.halfFull ++ [255, 0, 0, 0, 1, 0, 0, 0, 2] ++ [1, 2, 3]))).2

def raggedFile : Arguments := ⟨9, 1, "t", 1, .info⟩

theorem description_counts_listed_small :
    ∃ rows, Lists raggedFile "t" raggedFolder rows ∧
      (raggedFile.run "t" raggedFolder).lines =
        description (raggedFile.tableOf 0 "/d/t") 2 2 rows ∧
      (raggedFile.run "t" raggedFolder).ending = .success ∧
      (raggedFile.run "t" raggedFolder).lines.drop 5 =
        ["pages:          2", "  page      0: 1/2 used", "  page      1: 2/2 used",
          "records:        3"] ∧
      ((raggedFile.scanning 1 false).run "t" raggedFolder).lines.length = 3 := by
  have there : raggedFolder.open? "t" = .ok (0, "/d/t") := by decide +kernel
  obtain ⟨rows, lists, described⟩ := @description_counts_listed raggedFile "t" "/d/t" raggedFolder
    0 there (by decide) (by decide) (by decide) (by decide +kernel)
  have pages : (raggedFile.tableOf 0 "/d/t").pages.wholePages raggedFolder = 2 := by
    decide +kernel
  rw [pages] at described
  obtain ⟨lines, ending⟩ := described 1 ⟨by decide, by decide⟩
  exact ⟨rows, lists, lines, ending, by decide +kernel, by decide +kernel⟩

end Command

end RecordStore
