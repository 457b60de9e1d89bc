import Std.Data.ExtTreeMap

set_option autoImplicit false

/-! Lookup in maps after an insertion or removal, for keys that are equal when they compare equal.
-/

namespace RecordStore

variable {Key Entry Other : Type} [Ord Key] [Std.TransOrd Key]

section Change

variable [Std.LawfulEqOrd Key] [DecidableEq Key]

theorem lookup_insert (map : Std.ExtTreeMap Key Entry) (key other : Key) (entry : Entry) :
    (map.insert key entry)[other]? = if key = other then some entry else map[other]? := by
  simp only [Std.ExtTreeMap.getElem?_insert, Std.LawfulEqCmp.compare_eq_iff_eq]

theorem lookup_erase (map : Std.ExtTreeMap Key Entry) (key other : Key) :
    (map.erase key)[other]? = if key = other then none else map[other]? := by
  simp only [Std.ExtTreeMap.getElem?_erase, Std.LawfulEqCmp.compare_eq_iff_eq]

theorem erase_of_absent {map : Std.ExtTreeMap Key Entry} {key : Key} (absent : map[key]? = none) :
    map.erase key = map := by
  apply Std.ExtTreeMap.ext_getElem?
  intro other
  rw [lookup_erase]
  split
  · next same => rw [← same, absent]
  · rfl

theorem insert_insert (map : Std.ExtTreeMap Key Entry) (key : Key) (former entry : Entry) :
    (map.insert key former).insert key entry = map.insert key entry := by
  apply Std.ExtTreeMap.ext_getElem?
  intro other
  rw [lookup_insert, lookup_insert, lookup_insert]
  split <;> rfl

end Change

/-! ### Sizes -/

theorem contains_eq_isSome (map : Std.ExtTreeMap Key Entry) (key : Key) :
    map.contains key = map[key]?.isSome :=
  Std.ExtTreeMap.contains_eq_isSome_getElem?

theorem size_insert_of_present {map : Std.ExtTreeMap Key Entry} {key : Key} (entry : Entry)
    (present : map[key]?.isSome) : (map.insert key entry).size = map.size := by
  rw [Std.ExtTreeMap.size_insert, contains_eq_isSome, if_pos present]

theorem size_insert_of_absent {map : Std.ExtTreeMap Key Entry} {key : Key} (entry : Entry)
    (absent : map[key]? = none) : (map.insert key entry).size = map.size + 1 := by
  rw [Std.ExtTreeMap.size_insert, contains_eq_isSome, absent]
  rfl

theorem size_pos_of_present {map : Std.ExtTreeMap Key Entry} {key : Key}
    (present : map[key]?.isSome) : 0 < map.size := by
  apply Nat.pos_of_ne_zero
  intro none
  rw [Std.ExtTreeMap.eq_empty_iff_size_eq_zero.mpr none, Std.ExtTreeMap.getElem?_empty] at present
  cases present

theorem size_erase_of_present {map : Std.ExtTreeMap Key Entry} {key : Key}
    (present : map[key]?.isSome) : (map.erase key).size = map.size - 1 := by
  rw [Std.ExtTreeMap.size_erase, contains_eq_isSome, if_pos present]

/-! ### Keeping some entries -/

section FilterMap

variable (map : Std.ExtTreeMap Key Entry) (keep : Entry → Option Other)

theorem lookup_filterMap [Std.LawfulEqOrd Key] (key : Key) :
    (map.filterMap fun _ entry => keep entry)[key]? = map[key]?.bind keep := by
  rw [Std.ExtTreeMap.getElem?_filterMap']

theorem filterMap_erase [Std.LawfulEqOrd Key] [DecidableEq Key] (key : Key) :
    ((map.erase key).filterMap fun _ entry => keep entry) =
      (map.filterMap fun _ entry => keep entry).erase key := by
  apply Std.ExtTreeMap.ext_getElem?
  intro other
  rw [lookup_filterMap, lookup_erase, lookup_erase, lookup_filterMap]
  split <;> rfl

theorem filterMap_insert [Std.LawfulEqOrd Key] [DecidableEq Key] (key : Key) (entry : Entry) :
    ((map.insert key entry).filterMap fun _ entry => keep entry) =
      match keep entry with
      | some kept => (map.filterMap fun _ entry => keep entry).insert key kept
      | none => (map.filterMap fun _ entry => keep entry).erase key := by
  apply Std.ExtTreeMap.ext_getElem?
  intro other
  rw [lookup_filterMap, lookup_insert]
  cases kept : keep entry with
  | some kept =>
      simp only [lookup_insert, lookup_filterMap]
      split
      · exact kept
      · rfl
  | none =>
      simp only [lookup_erase, lookup_filterMap]
      split
      · exact kept
      · rfl

theorem size_filterMap_lt {key : Key} {entry : Entry} (present : map[key]? = some entry)
    (dropped : keep entry = none) : (map.filterMap fun _ entry => keep entry).size < map.size := by
  apply Nat.lt_of_le_of_ne Std.ExtTreeMap.size_filterMap_le_size
  intro same
  have member : key ∈ map := Std.ExtTreeMap.mem_iff_isSome_getElem?.mpr (by rw [present]; rfl)
  have kept := Std.ExtTreeMap.size_filterMap_eq_size_iff.mp same key member
  have found : map[key] = entry := by
    rw [Std.ExtTreeMap.getElem?_eq_some_getElem member] at present
    exact Option.some.inj present
  rw [found, dropped] at kept
  cases kept

theorem size_filterMap_eq
    (kept : ∀ (key : Key) (entry : Entry), map[key]? = some entry → (keep entry).isSome) :
    (map.filterMap fun _ entry => keep entry).size = map.size := by
  apply Std.ExtTreeMap.size_filterMap_eq_size_iff.mpr
  intro key member
  exact kept key map[key] (Std.ExtTreeMap.getElem?_eq_some_getElem member)

theorem lookup_filter [Std.LawfulEqOrd Key] (chosen : Key → Bool) (key : Key) :
    (map.filter fun key _ => chosen key)[key]? = if chosen key then map[key]? else none := by
  rw [Std.ExtTreeMap.getElem?_filter']
  cases map[key]? <;> cases chosen key <;> rfl

theorem size_filter_lt {chosen : Key → Entry → Bool} [Std.LawfulEqOrd Key] {key : Key}
    {entry : Entry} (present : map[key]? = some entry) (dropped : chosen key entry = false) :
    (map.filter chosen).size < map.size := by
  apply Nat.lt_of_le_of_ne Std.ExtTreeMap.size_filter_le_size
  intro same
  have member : key ∈ map := Std.ExtTreeMap.mem_iff_isSome_getElem?.mpr (by rw [present]; rfl)
  have kept := Std.ExtTreeMap.size_filter_eq_size_iff.mp same key member
  rw [Std.ExtTreeMap.getElem?_eq_some_getElem member, Option.some.injEq] at present
  rw [Std.ExtTreeMap.getKey_eq, present, dropped] at kept
  cases kept

end FilterMap

end RecordStore
