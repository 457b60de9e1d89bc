import Mathlib.Algebra.Group.Nat.Defs
import RecordStore.Page.Layout

set_option autoImplicit false

/-! Bitmap and slots fit the page, and setting or clearing the bit of one slot leaves the other bits
unchanged. -/

namespace RecordStore.Layout

/-- `slotCount` is the largest number of slots that fit behind their bitmap. -/
theorem fits_iff_le_slotCount (pageSize rowWidth slots : Nat) :
    bitmapSize slots + slots * rowWidth ≤ pageSize ↔ slots ≤ slotCount pageSize rowWidth := by
  have bits : slots * (rowWidth * 8 + 1) = slots * rowWidth * 8 + slots := by
    rw [Nat.mul_add, Nat.mul_assoc, Nat.mul_one]
  rw [slotCount, Nat.le_div_iff_mul_le (Nat.succ_pos _), bits, bitmapSize]
  omega

theorem bitmap_and_slots_fit (pageSize rowWidth : Nat) :
    bitmapSize (slotCount pageSize rowWidth) + slotCount pageSize rowWidth * rowWidth ≤
      pageSize :=
  (fits_iff_le_slotCount pageSize rowWidth _).mpr (Nat.le_refl _)

theorem toNat_mask (slot : Nat) : (mask slot).toNat = 2 ^ (slot % 8) := by
  have places : ∀ place : Fin 8, ((1 : UInt8) <<< UInt8.ofNat place).toNat = 2 ^ place.val := by
    decide
  exact places ⟨slot % 8, Nat.mod_lt slot (by decide)⟩

private theorem and_two_pow_ne_zero_iff (number place : Nat) :
    number &&& 2 ^ place ≠ 0 ↔ number.testBit place = true := by
  constructor
  · intro present
    cases bit : number.testBit place with
    | true => rfl
    | false =>
        refine absurd (Nat.eq_of_testBit_eq fun other => ?_) present
        rw [Nat.testBit_and, Nat.testBit_two_pow, Nat.zero_testBit]
        by_cases same : place = other
        · rw [← same, bit, Bool.false_and]
        · rw [decide_eq_false same, Bool.and_false]
  · intro present zero
    have bit : (number &&& 2 ^ place).testBit place = true := by
      rw [Nat.testBit_and, present, Nat.testBit_two_pow_self]
      rfl
    rw [zero, Nat.zero_testBit] at bit
    cases bit

theorem and_mask_bne_zero (byte : UInt8) (slot : Nat) :
    (byte &&& mask slot != 0) = byte.toNat.testBit (slot % 8) := by
  rw [Bool.eq_iff_iff, bne_iff_ne, ← and_two_pow_ne_zero_iff, ne_eq, ne_eq,
    ← UInt8.toNat_inj, UInt8.toNat_and, toNat_mask]
  rfl

theorem testBit_or_mask (byte : UInt8) (slot place : Nat) :
    (byte ||| mask slot).toNat.testBit place =
      if slot % 8 = place then true else byte.toNat.testBit place := by
  rw [UInt8.toNat_or, toNat_mask, Nat.testBit_or, Nat.testBit_two_pow]
  split
  · next same => rw [decide_eq_true same, Bool.or_true]
  · next different => rw [decide_eq_false different, Bool.or_false]

theorem testBit_and_not_mask (byte : UInt8) (slot : Nat) {place : Nat} (small : place < 8) :
    (byte &&& ~~~ mask slot).toNat.testBit place =
      if slot % 8 = place then false else byte.toNat.testBit place := by
  have bound : 2 ^ (slot % 8) < 2 ^ 8 :=
    Nat.pow_lt_pow_right (by decide) (Nat.mod_lt slot (by decide))
  have others : UInt8.size - 1 - 2 ^ (slot % 8) = 2 ^ 8 - (2 ^ (slot % 8) + 1) :=
    (Nat.sub_sub _ _ _).trans (congrArg _ (Nat.add_comm 1 _))
  rw [UInt8.toNat_and, UInt8.toNat_not, toNat_mask, others, Nat.testBit_and,
    Nat.testBit_two_pow_sub_succ bound, Nat.testBit_two_pow, decide_eq_true small, Bool.true_and]
  split
  · next same => rw [decide_eq_true same, Bool.not_true, Bool.and_false]
  · next different => rw [decide_eq_false different, Bool.not_false, Bool.and_true]

theorem isSet_eq (bitmap : Array UInt8) (slot : Nat) :
    isSet bitmap slot = (bitmap.getD (slot / 8) 0).toNat.testBit (slot % 8) :=
  and_mask_bne_zero _ slot

private theorem getD_modify (bitmap : Array UInt8) (changed index : Nat) (change : UInt8 → UInt8)
    (inside : changed < bitmap.size) :
    (bitmap.modify changed change).getD index 0 =
      if changed = index then change (bitmap.getD index 0) else bitmap.getD index 0 := by
  simp only [Array.getD_eq_getD_getElem?, Array.getElem?_modify]
  split
  · next same =>
      subst same
      simp [Array.getElem?_eq_getElem inside]
  · rfl

private theorem same_slot_iff (slot other : Nat) :
    slot = other ↔ slot / 8 = other / 8 ∧ slot % 8 = other % 8 := by
  omega

/-- Changing the bit of one slot changes the bit of no other. -/
private theorem isSet_modify (bitmap : Array UInt8) {slot : Nat} {change : UInt8 → UInt8}
    {used : Bool} (other : Nat) (inside : slot / 8 < bitmap.size)
    (bits : ∀ byte : UInt8, ∀ place < 8, (change byte).toNat.testBit place =
      if slot % 8 = place then used else byte.toNat.testBit place) :
    isSet (bitmap.modify (slot / 8) change) other =
      if slot = other then used else isSet bitmap other := by
  rw [isSet_eq, isSet_eq, getD_modify bitmap _ _ _ inside]
  by_cases sameByte : slot / 8 = other / 8
  · rw [if_pos sameByte, bits _ _ (Nat.mod_lt other (by decide))]
    simp only [same_slot_iff slot other, sameByte, true_and]
  · have different : slot ≠ other := fun same => sameByte (congrArg (· / 8) same)
    rw [if_neg sameByte, if_neg different]

theorem isSet_setBit (bitmap : Array UInt8) {slot : Nat} (other : Nat)
    (inside : slot / 8 < bitmap.size) :
    isSet (setBit bitmap slot) other = if slot = other then true else isSet bitmap other :=
  isSet_modify bitmap other inside fun byte place _ => testBit_or_mask byte slot place

theorem isSet_clearBit (bitmap : Array UInt8) {slot : Nat} (other : Nat)
    (inside : slot / 8 < bitmap.size) :
    isSet (clearBit bitmap slot) other = if slot = other then false else isSet bitmap other :=
  isSet_modify bitmap other inside fun byte _ small => testBit_and_not_mask byte slot small

/-- Bitmaps of one size with the same bits are equal. -/
theorem eq_of_isSet {left right : Array UInt8} (size : left.size = right.size)
    (bits : ∀ slot, isSet left slot = isSet right slot) : left = right := by
  refine Array.ext size fun index inside insideToo => UInt8.toNat_inj.mp ?_
  refine Nat.eq_of_testBit_eq fun place => ?_
  by_cases small : place < 8
  · have byte : (8 * index + place) / 8 = index := by omega
    have bit : (8 * index + place) % 8 = place := by omega
    have here := bits (8 * index + place)
    rwa [isSet_eq, isSet_eq, byte, bit, Array.getD_eq_getD_getElem?, Array.getD_eq_getD_getElem?,
      Array.getElem?_eq_getElem inside, Array.getElem?_eq_getElem insideToo] at here
  · have most : 2 ^ 8 ≤ 2 ^ place := Nat.pow_le_pow_right (by decide) (Nat.le_of_not_lt small)
    rw [Nat.testBit_lt_two_pow (Nat.lt_of_lt_of_le (UInt8.toNat_lt _) most),
      Nat.testBit_lt_two_pow (Nat.lt_of_lt_of_le (UInt8.toNat_lt _) most)]

@[simp] theorem size_setBit (bitmap : Array UInt8) (slot : Nat) :
    (setBit bitmap slot).size = bitmap.size :=
  Array.size_modify

@[simp] theorem size_clearBit (bitmap : Array UInt8) (slot : Nat) :
    (clearBit bitmap slot).size = bitmap.size :=
  Array.size_modify

end RecordStore.Layout
