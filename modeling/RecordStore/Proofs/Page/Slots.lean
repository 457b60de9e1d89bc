import RecordStore.Proofs.Page.Access

set_option autoImplicit false

/-! The number of slots of a page is the largest that fits with one bit each. Bits are counted in
whole bytes, so it comes from a division on one side and from a rounded one on the other. -/

namespace RecordStore

namespace Layout

def Fits (pageSize rowWidth slots : Nat) : Prop :=
  bitmapSize slots + slots * rowWidth ≤ pageSize

def place (rowWidth slots slot : Nat) : Nat := bitmapSize slots + slot * rowWidth

def Covers (rowWidth slots slot position : Nat) : Prop :=
  place rowWidth slots slot ≤ position ∧ position < place rowWidth slots slot + rowWidth

/-- Every slot has its own bit in the bitmap and its own bytes on the page. -/
structure Tiles (pageSize rowWidth slots : Nat) : Prop where
  bitmap : bitmapSize slots ≤ pageSize
  bits : ∀ slot < slots, slot / 8 < bitmapSize slots
  inside : ∀ slot < slots, place rowWidth slots slot + rowWidth ≤ pageSize
  behind : ∀ slot position, Covers rowWidth slots slot position → bitmapSize slots ≤ position
  apart : ∀ slot other position, Covers rowWidth slots slot position →
    Covers rowWidth slots other position → slot = other

variable {pageSize rowWidth slots : Nat}

/-- A slot ends at or before the start of any later slot. -/
theorem place_add_width_le {slot other : Nat} (earlier : slot < other) :
    place rowWidth slots slot + rowWidth ≤ place rowWidth slots other := by
  have step := Nat.mul_le_mul_right rowWidth (Nat.succ_le_of_lt earlier)
  rw [Nat.succ_mul] at step
  rw [place, place, Nat.add_assoc]
  exact Nat.add_le_add_left step _

theorem Fits.tiles (fits : Fits pageSize rowWidth slots) : Tiles pageSize rowWidth slots where
  bitmap := Nat.le_trans (Nat.le_add_right _ _) fits
  bits := by
    intro slot inside
    rw [bitmapSize]
    omega
  inside := fun _ inside => Nat.le_trans (place_add_width_le inside) fits
  behind := fun _ _ covers => Nat.le_trans (Nat.le_add_right _ _) covers.1
  apart := by
    rintro slot other position ⟨above, below⟩ ⟨aboveToo, belowToo⟩
    rcases Nat.lt_trichotomy slot other with before | same | behind
    · have ends := @place_add_width_le rowWidth slots slot other before
      exact absurd below (Nat.not_lt.mpr (Nat.le_trans ends aboveToo))
    · exact same
    · have ends := @place_add_width_le rowWidth slots other slot behind
      exact absurd belowToo (Nat.not_lt.mpr (Nat.le_trans ends above))

/-- The checked `slotCount` succeeds if the bits of a page, and of a row with its own bit, fit a
word. -/
theorem checkedSlotCount_eq (pageSize rowWidth : Nat) :
    checkedSlotCount pageSize rowWidth =
      if pageSize * 8 < wordLimit ∧ rowWidth * 8 + 1 < wordLimit then
        .ok (slotCount pageSize rowWidth)
      else .error .multiplyOverflow := by
  -- A number of bits that is a multiple of eight never lies just below the limit.
  have narrow : rowWidth * 8 + 1 < wordLimit ↔ rowWidth * 8 < wordLimit := by
    rw [wordLimit]
    omega
  simp only [narrow, checkedSlotCount, multiply]
  by_cases bits : pageSize * 8 < wordLimit
  · by_cases width : rowWidth * 8 < wordLimit
    · simp only [bits, width, and_self, if_true]
    · simp only [bits, width, and_false, if_true, if_false]
  · simp only [bits, false_and, if_false]

end Layout

namespace Page

/-- A slot is sliced from the bytes that it covers. -/
theorem slice?_areaIn {schema : Schema} {bytes : List UInt8} {slot : Nat}
    (inside : slot < Layout.slotCount bytes.length schema.width) :
    slice? bytes
        (Layout.place schema.width (Layout.slotCount bytes.length schema.width) slot)
        (Layout.place schema.width (Layout.slotCount bytes.length schema.width) slot +
          schema.width) =
      some (areaIn schema bytes slot) := by
  have fits : Layout.Fits bytes.length schema.width (Layout.slotCount bytes.length schema.width) :=
    Layout.bitmap_and_slots_fit bytes.length schema.width
  rw [slice?_area (fits.tiles.inside slot inside), areaIn, slotsIn, slotArea, slotArea,
    Nat.zero_mul, List.drop_zero, List.drop_drop, Layout.place]

end Page

namespace Layout

/-- `checkedSlotCount` returns the largest number of slots that fit with one bit each. The slots
tile the page, so each is read from its own bytes, also for rows without bytes, rows wider than the
page, and a page without bytes. -/
theorem slots_fill_page {pageSize rowWidth : Nat} (bits : pageSize * 8 < wordLimit)
    (narrow : rowWidth * 8 + 1 < wordLimit) :
    ∃ slots, checkedSlotCount pageSize rowWidth = .ok slots ∧
      slots = slotCount pageSize rowWidth ∧
      (∀ other, Fits pageSize rowWidth other ↔ other ≤ slots) ∧
      ¬ Fits pageSize rowWidth (slots + 1) ∧
      Tiles pageSize rowWidth slots ∧
      ∀ (schema : Schema) (bytes : List UInt8), schema.width = rowWidth →
        bytes.length = pageSize → ∀ slot < slots,
          slice? bytes (place rowWidth slots slot) (place rowWidth slots slot + rowWidth) =
            some (Page.areaIn schema bytes slot) := by
  have greatest : ∀ other, Fits pageSize rowWidth other ↔ other ≤ slotCount pageSize rowWidth :=
    fits_iff_le_slotCount pageSize rowWidth
  refine ⟨slotCount pageSize rowWidth, ?_, rfl, greatest, ?_, ?_, ?_⟩
  · rw [checkedSlotCount_eq, if_pos ⟨bits, narrow⟩]
  · rw [greatest]
    exact Nat.not_succ_le_self _
  · exact ((greatest _).mpr (Nat.le_refl _)).tiles
  · rintro schema bytes rfl rfl slot inside
    exact Page.slice?_areaIn inside

/-- Eight rows of four bytes and a bitmap of one byte fill thirty-three bytes. With a byte less
there is room for seven, and four bytes more leave no room for a ninth, which needs another byte of
the bitmap. -/
theorem slots_fill_page_small :
    33 * 8 < wordLimit ∧ 4 * 8 + 1 < wordLimit ∧
      (∃ slots, checkedSlotCount 33 4 = .ok slots ∧ slots = slotCount 33 4 ∧
        (∀ other, Fits 33 4 other ↔ other ≤ slots) ∧ ¬ Fits 33 4 (slots + 1) ∧
        Tiles 33 4 slots ∧
        ∀ (schema : Schema) (bytes : List UInt8), schema.width = 4 → bytes.length = 33 →
          ∀ slot < slots, slice? bytes (place 4 slots slot) (place 4 slots slot + 4) =
            some (Page.areaIn schema bytes slot)) ∧
      [32, 33, 37, 38].map (fun pageSize => slotCount pageSize 4) = [7, 8, 8, 9] := by
  have bits : 33 * 8 < wordLimit := by decide
  have narrow : 4 * 8 + 1 < wordLimit := by decide
  exact ⟨bits, narrow, slots_fill_page bits narrow, by decide⟩

end Layout

end RecordStore
