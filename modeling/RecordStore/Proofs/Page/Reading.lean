import RecordStore.Proofs.Table

set_option autoImplicit false

/-! Results of `readPage` for arbitrary bytes. A page that is read is clean and has the decoded
slots; a failure is never `cacheFull`. Pages of integers always decode. -/

namespace RecordStore

inductive StorageError.Unreadable : StorageError → Prop where
  | corrupt (cause : Corruption) : Unreadable (.corrupt cause)
  | system (cause : SystemError) : Unreadable (.system cause)

open StorageError (Unreadable)

/-! ### Bytes that cannot be read -/

theorem unreadable_of_readWord {bytes : List UInt8} {error : StorageError}
    (refused : readWord bytes = .error error) : Unreadable error := by
  unfold readWord at refused
  split at refused
  · cases refused
  · cases refused
    exact .system _

theorem unreadable_of_readBytes {count : Nat} {bytes : List UInt8} {error : StorageError}
    (refused : readBytes count bytes = .error error) : Unreadable error := by
  unfold readBytes at refused
  split at refused
  · cases refused
  · cases refused
    exact .system _

theorem unreadable_of_readText {length : Int32} {payload : List UInt8} {error : StorageError}
    (refused : readText length payload = .error error) : Unreadable error := by
  unfold readText at refused
  split at refused
  · cases refused
    exact .corrupt _
  · split at refused
    · cases refused
      exact .corrupt _
    · cases refused

theorem ColumnType.unreadable_of_decode {type : ColumnType} {bytes : List UInt8}
    {error : StorageError} (refused : type.decode bytes = .error error) : Unreadable error := by
  cases type with
  | int =>
      unfold ColumnType.decode at refused
      cases read : readWord bytes with
      | error cause =>
          simp only [read] at refused
          cases refused
          exact unreadable_of_readWord read
      | ok pair => simp [read] at refused
  | text =>
      unfold ColumnType.decode at refused
      cases read : readWord bytes with
      | error cause =>
          simp only [read] at refused
          cases refused
          exact unreadable_of_readWord read
      | ok pair =>
          cases taken : readBytes textRoom pair.2 with
          | error cause =>
              simp only [read, taken] at refused
              cases refused
              exact unreadable_of_readBytes taken
          | ok parts =>
              cases text : readText pair.1 parts.1 with
              | error cause =>
                  simp only [read, taken, text] at refused
                  cases refused
                  exact unreadable_of_readText text
              | ok value => simp [read, taken, text] at refused

theorem Row.unreadable_of_decodeValues {types : List ColumnType} {bytes : List UInt8}
    {error : StorageError} (refused : decodeValues types bytes = .error error) :
    Unreadable error := by
  induction types generalizing bytes with
  | nil => cases refused
  | cons type types ih =>
      unfold decodeValues at refused
      split at refused
      · next failed =>
          cases refused
          exact type.unreadable_of_decode failed
      · split at refused
        · next failed =>
            cases refused
            exact ih failed
        · cases refused

theorem Row.unreadable_of_decode {schema : Schema} {bytes : List UInt8} {error : StorageError}
    (refused : decode schema bytes = .error error) : Unreadable error := by
  unfold decode at refused
  split at refused
  · next failed =>
      cases refused
      exact unreadable_of_decodeValues failed
  · cases refused

namespace Page

theorem unreadable_of_decodeSlots {id : PageId} {schema : Schema} {bitmap : Array UInt8}
    {width remaining first : Nat} {bytes : List UInt8} {error : StorageError}
    (refused : decodeSlots id schema bitmap width remaining first bytes = .error error) :
    Unreadable error := by
  induction remaining generalizing first bytes with
  | zero => cases refused
  | succ remaining ih =>
      have later : ∀ entry : Option Row,
          (decodeSlots id schema bitmap width remaining (first + 1) (bytes.drop width)).map
            (entry :: ·) = .error error → Unreadable error := by
        intro entry failed
        cases others : decodeSlots id schema bitmap width remaining (first + 1)
            (bytes.drop width) with
        | error cause =>
            rw [others] at failed
            cases failed
            exact ih others
        | ok entries =>
            rw [others] at failed
            cases failed
      unfold decodeSlots at refused
      split at refused
      · split at refused
        · next failed =>
            cases refused
            exact Row.unreadable_of_decode failed
        · exact later _ refused
      · exact later _ refused

theorem unreadable_of_decode {id : PageId} {schema : Schema} {bytes : List UInt8}
    {error : StorageError} (refused : decode id schema bytes = .error error) :
    Unreadable error := by
  unfold decode at refused
  simp only at refused
  split at refused
  · next failed =>
      cases refused
      exact unreadable_of_decodeSlots failed
  · cases refused

end Page

/-! ### Integers -/

def Schema.Integral (schema : Schema) : Prop := ∀ type ∈ schema.types, type = .int

theorem Row.stored_of_integral {row : Row} (integral : row.schema.Integral) :
    row.stored = row.values := by
  refine (List.map_congr_left fun value member => ?_).trans (List.map_id _)
  have typed : value.type = .int := integral value.type (by
    rw [← row.typed]
    exact List.mem_map_of_mem member)
  cases value with
  | int number => rfl
  | text content => cases typed

theorem readWord_enough {bytes : List UInt8} (enough : 4 ≤ bytes.length) :
    ∃ number, readWord bytes = .ok (number, bytes.drop 4) := by
  match bytes, enough with
  | first :: second :: third :: fourth :: rest, _ => exact ⟨_, rfl⟩

theorem Row.decodeValues_integral {types : List ColumnType} (integral : ∀ type ∈ types, type = .int)
    {bytes : List UInt8}
    (enough : types.foldr (fun type total => type.width + total) 0 ≤ bytes.length) :
    ∃ values rest, decodeValues types bytes = .ok (values, rest) := by
  induction types generalizing bytes with
  | nil => exact ⟨[], bytes, rfl⟩
  | cons type types ih =>
      obtain rfl := integral type List.mem_cons_self
      rw [List.foldr_cons, ColumnType.width] at enough
      obtain ⟨number, read⟩ := readWord_enough (Nat.le_trans (Nat.le_add_right 4 _) enough)
      obtain ⟨values, rest, later⟩ := @ih (fun other member =>
        integral other (List.mem_cons_of_mem _ member)) (bytes.drop 4) (by
          rw [List.length_drop]
          omega)
      exact ⟨.int number :: values, rest, by
        simp only [decodeValues, ColumnType.decode, read, later]⟩

theorem Row.decode_integral {schema : Schema} (integral : schema.Integral) {bytes : List UInt8}
    (enough : schema.width ≤ bytes.length) : ∃ row, decode schema bytes = .ok row := by
  obtain ⟨values, rest, decoded⟩ := Row.decodeValues_integral integral enough
  exact ⟨_, Row.decode_of_decodeValues decoded⟩

namespace Page

theorem decodeSlots_integral {id : PageId} {schema : Schema} (integral : schema.Integral)
    {bitmap : Array UInt8} {remaining slot : Nat} {bytes : List UInt8}
    (enough : remaining * schema.width ≤ bytes.length) :
    ∃ slots, decodeSlots id schema bitmap schema.width remaining slot bytes = .ok slots := by
  induction remaining generalizing slot bytes with
  | zero => exact ⟨[], rfl⟩
  | succ remaining ih =>
      rw [Nat.succ_mul] at enough
      obtain ⟨slots, later⟩ := @ih (slot + 1) (bytes.drop schema.width) (by
        rw [List.length_drop]
        omega)
      unfold decodeSlots
      rw [later]
      split
      · obtain ⟨row, decoded⟩ := @Row.decode_integral schema integral (bytes.take schema.width) (by
          rw [List.length_take]
          omega)
        rw [decoded]
        exact ⟨_, rfl⟩
      · exact ⟨_, rfl⟩

theorem decode_integral {schema : Schema} (integral : schema.Integral) (id : PageId)
    (bytes : List UInt8) : ∃ page, decode id schema bytes = .ok page := by
  have fits := Layout.bitmap_and_slots_fit bytes.length schema.width
  obtain ⟨slots, decoded⟩ := @decodeSlots_integral id schema integral
    (bytes.take (Layout.bitmapSize (Layout.slotCount bytes.length schema.width))).toArray
    (Layout.slotCount bytes.length schema.width) 0
    (bytes.drop (Layout.bitmapSize (Layout.slotCount bytes.length schema.width))) (by
      rw [List.length_drop]
      omega)
  unfold decode
  dsimp only
  rw [decoded]
  exact ⟨_, rfl⟩

/-! ### Pages with the same slots -/

/-- The bytes of a slot depend on its values as they are stored. -/
theorem slotBytes_eq (width : Nat) (entry : Option Row) :
    slotBytes width entry =
      match entry.map Row.stored with
      | some values => values.flatMap Value.encode
      | none => List.replicate width 0 := by
  cases entry with
  | none => rfl
  | some row =>
      change row.values.flatMap Value.encode = (row.values.map Value.stored).flatMap Value.encode
      rw [List.flatMap_map]
      simp only [Value.encode_stored]

theorem encode_congr {left right : Page} (schema : left.schema = right.schema)
    (size : left.size = right.size) (bitmap : left.bitmap = right.bitmap)
    (contents : left.contents = right.contents) : left.encode = right.encode := by
  have slots : ∀ page : Page, page.slots.toList.flatMap (slotBytes right.schema.width) =
      page.contents.flatMap fun entry =>
        match entry with
        | some values => values.flatMap Value.encode
        | none => List.replicate right.schema.width 0 := by
    intro page
    rw [Page.contents, List.flatMap_map]
    congr 1
    funext entry
    exact slotBytes_eq right.schema.width entry
  rw [encode, encode, schema, size, bitmap, slots left, contents, ← slots right]

end Page

theorem PageFile.refusals_of_read {pages : PageFile} {directory : Directory} {number : UInt32}
    {failure : Failure} (failed : pages.read directory number pages.pageSize = .error failure) :
    failure = .broken .divideByZero ∨
      ∃ count, failure = .refused (.pageOutOfRange number count) := by
  unfold PageFile.read PageFile.count at failed
  by_cases zero : pages.pageSize = 0
  · simp only [zero, ne_eq, not_true_eq_false, if_false, if_true] at failed
    cases failed
    exact .inl rfl
  · simp only [zero, ne_eq, not_true_eq_false, if_false] at failed
    split at failed
    · cases failed
      exact .inr ⟨_, rfl⟩
    · cases failed

namespace Table

inductive Unread (table : Table) (page : PageId) : Failure → Prop where
  | foreign : Unread table page (.refused (.foreignTable table.id page.table))
  | unbuffered : Unread table page (.broken .capacityOverflow)
  | unsized : Unread table page (.broken .divideByZero)
  | missing : Unread table page (.refused (.missingPage page))
  | unreadable {error : StorageError} : Unreadable error → Unread table page (.refused error)

variable {table : Table} {directory : Directory} {page : PageId}

theorem unread_of_readPage {failure : Failure}
    (failed : table.readPage directory page = .error failure) : table.Unread page failure := by
  unfold readPage at failed
  split at failed
  · next error owner =>
      unfold checkOwner at owner
      split at owner
      · cases owner
      · cases owner
        cases failed
        exact .foreign
  · split at failed
    · cases failed
      exact .unbuffered
    · split at failed
      · cases failed
        exact .missing
      · next plain unread =>
          cases failed
          rcases PageFile.refusals_of_read unread with rfl | ⟨count, rfl⟩
          · exact .unsized
          · exact absurd rfl (plain page.number count)
      · split at failed
        · next undecoded =>
            cases failed
            exact .unreadable (Page.unreadable_of_decode undecoded)
        · cases failed

theorem decoded_of_readPage {found : Page} (read : table.readPage directory page = .ok found) :
    ∃ bytes, table.pages.read directory page.number table.pageSize = .ok bytes ∧
      Page.decode page table.schema bytes = .ok found := by
  unfold readPage at read
  split at read
  · cases read
  · split at read
    · cases read
    · split at read
      · cases read
      · cases read
      · next bytes content =>
          split at read
          · cases read
          · next decoded =>
              cases read
              exact ⟨bytes, content, decoded⟩

/-- Every page of a table of integers can be read. -/
theorem readPage_integral (usable : table.Usable) (integral : table.schema.Integral)
    (countable : table.pages.wholePages directory < UInt32.size) (owned : page.table = table.id)
    (inside : page.number.toNat < table.pages.wholePages directory) :
    ∃ found, table.readPage directory page = .ok found := by
  obtain ⟨found, decoded⟩ := Page.decode_integral integral page
    (table.pages.bytesAt directory page.number.toNat)
  rw [readPage_eq usable countable owned, if_pos inside, decoded]
  exact ⟨found, rfl⟩

theorem dirtier_of_readPage {found : Page} (read : table.readPage directory page = .ok found) :
    found.dirtier = none := by
  obtain ⟨bytes, -, decoded⟩ := decoded_of_readPage read
  exact (Page.loaded_of_decode decoded).clean

end Table

end RecordStore
