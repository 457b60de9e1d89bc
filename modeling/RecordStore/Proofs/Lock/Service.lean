import RecordStore.Lock.Service
import RecordStore.Proofs.Lock.Table

set_option autoImplicit false

/-! `acquire` and `release` by their effect on the modes held. Without other calls in between a
request is granted at once or times out, and in the second case all modes are unchanged. -/

namespace RecordStore

namespace LockTable

theorem records_enqueue (table : LockTable) (page : PageId) :
    (table.enqueue page).2.records = table.records ∧ (table.enqueue page).2.held = table.held := by
  unfold enqueue
  split <;> exact ⟨rfl, rfl⟩

theorem records_dequeue (table : LockTable) (page : PageId) :
    (table.dequeue page).records = table.records ∧ (table.dequeue page).held = table.held := by
  unfold dequeue
  split
  · exact ⟨rfl, rfl⟩
  · split <;> exact ⟨rfl, rfl⟩

theorem grant?_eq_none_of_same {table other : LockTable} {transaction : TransactionId}
    {page : PageId} {mode : LockMode} (records : other.records = table.records)
    (refused : table.grant? transaction page mode = none) :
    other.grant? transaction page mode = none := by
  rw [grant?, Option.map_eq_none_iff, grantedRecord?] at refused ⊢
  rwa [records]

theorem exists_reader (table : LockTable) (page : PageId) :
    ∃ transaction, (table.grant? transaction page .shared).isSome := by
  cases present : table.records[page]? with
  | none => exact ⟨⟨0⟩, by rw [grant?, Option.isSome_map, grantedRecord?, present]; rfl⟩
  | some record =>
      cases record with
      | shared holders =>
        exact ⟨⟨0⟩, by rw [grant?, Option.isSome_map, grantedRecord?, present]; rfl⟩
      | exclusive holder =>
          refine ⟨holder, ?_⟩
          rw [grant?, Option.isSome_map, grantedRecord?, present]
          simp only [LockRecord.grant, if_true]
          rfl

theorem modeOf_of_same {table other : LockTable} (records : other.records = table.records)
    (transaction : TransactionId) (page : PageId) :
    other.modeOf transaction page = table.modeOf transaction page := by
  rw [modeOf, modeOf, records]

end LockTable

namespace LockService

def modeOf (service : LockService) (transaction : TransactionId) (page : PageId) :
    Option LockMode := service.table.modeOf transaction page

@[simp] theorem table_release (service : LockService) (transaction : TransactionId)
    (page : PageId) :
    (service.release transaction page).table = (service.table.release transaction page).2 := rfl

@[simp] theorem table_releaseAll (service : LockService) (transaction : TransactionId) :
    (service.releaseAll transaction).table = (service.table.releaseAll transaction).2 := rfl

theorem acquire_granted {service : LockService} {transaction : TransactionId} {page : PageId}
    {mode : LockMode} {table : LockTable}
    (granted : service.table.grant? transaction page mode = some table) (sample : Nat) :
    service.acquire transaction page mode sample = (.ok (), { service with table := table }) := by
  unfold acquire ask
  rw [granted]

/-- A request that cannot be granted fails, and leaves records and index as they are. -/
theorem acquire_refused {service : LockService} {transaction : TransactionId} {page : PageId}
    {mode : LockMode} (refused : service.table.grant? transaction page mode = none)
    (sample : Nat) :
    ∃ failure after, service.acquire transaction page mode sample = (.error failure, after) ∧
      after.table.records = service.table.records ∧ after.table.held = service.table.held := by
  unfold acquire ask
  rw [refused]
  cases drawn : service.range.draw sample with
  | error fault => exact ⟨_, _, rfl, rfl, rfl⟩
  | ok bound =>
      obtain ⟨records, held⟩ := service.table.records_enqueue page
      have again := LockTable.grant?_eq_none_of_same records refused
      simp only [await, expire, again]
      obtain ⟨later, also⟩ := (service.table.enqueue page).2.records_dequeue page
      exact ⟨_, _, rfl, later.trans records, also.trans held⟩

/-! ### Locks that only grow -/

structure Strengthens (transaction : TransactionId) (before after : LockService) : Prop where
  consistent : before.table.Consistent → after.table.Consistent
  others : ∀ other page, other ≠ transaction → after.modeOf other page = before.modeOf other page
  held : ∀ page, (before.modeOf transaction page).isSome → (after.modeOf transaction page).isSome
  exclusive : ∀ page, before.modeOf transaction page = some .exclusive →
    after.modeOf transaction page = some .exclusive

namespace Strengthens

variable {transaction : TransactionId} {first second third : LockService}

theorem refl (transaction : TransactionId) (service : LockService) :
    Strengthens transaction service service :=
  ⟨id, fun _ _ _ => rfl, fun _ => id, fun _ => id⟩

theorem trans (earlier : Strengthens transaction first second)
    (later : Strengthens transaction second third) : Strengthens transaction first third where
  consistent := later.consistent ∘ earlier.consistent
  others other page different :=
    (later.others other page different).trans (earlier.others other page different)
  held page := later.held page ∘ earlier.held page
  exclusive page := later.exclusive page ∘ earlier.exclusive page

theorem of_same (records : second.table.records = first.table.records)
    (held : second.table.held = first.table.held) : Strengthens transaction first second := by
  have modes : ∀ other page, second.modeOf other page = first.modeOf other page :=
    fun other page => LockTable.modeOf_of_same records other page
  refine ⟨fun consistent => consistent.of_same records held, fun other page _ => modes other page,
    fun page => ?_, fun page => ?_⟩
  · rw [modes]
    exact id
  · rw [modes]
    exact id

end Strengthens

theorem raise_of_held {former : Option LockMode} {mode : LockMode}
    (exclusive : former = some .exclusive) : LockMode.raise former mode = .exclusive :=
  if_pos exclusive

theorem strengthens_of_grant? {service : LockService} {transaction : TransactionId} {page : PageId}
    {mode : LockMode} {table : LockTable}
    (granted : service.table.grant? transaction page mode = some table) :
    Strengthens transaction service { service with table := table } := by
  have modes : ∀ other place, LockService.modeOf { service with table := table } other place =
      if other = transaction ∧ place = page then
        some (LockMode.raise (service.modeOf transaction page) mode)
      else service.modeOf other place :=
    fun other place => LockTable.modeOf_grant? granted other place
  refine ⟨fun consistent => consistent.grant? granted, ?_, ?_, ?_⟩
  · intro other place different
    rw [modes, if_neg fun both => different both.1]
  · intro place held
    rw [modes]
    split
    · rfl
    · exact held
  · intro place exclusive
    rw [modes]
    split
    · next both =>
        rw [both.2] at exclusive
        rw [raise_of_held exclusive]
    · exact exclusive

/-- `acquire` only adds to the modes held, whether it is granted or not. -/
theorem acquire_strengthens (service : LockService) (transaction : TransactionId) (page : PageId)
    (mode : LockMode) (sample : Nat) :
    Strengthens transaction service (service.acquire transaction page mode sample).2 := by
  cases granted : service.table.grant? transaction page mode with
  | some table =>
      rw [acquire_granted granted]
      exact strengthens_of_grant? granted
  | none =>
      obtain ⟨failure, after, refused, records, held⟩ := acquire_refused granted sample
      rw [refused]
      exact .of_same records held

/-- A granted request gives the mode asked for, or a stronger one. -/
theorem modeOf_of_acquire {service after : LockService} {transaction : TransactionId}
    {page : PageId} {mode : LockMode} {sample : Nat}
    (acquired : service.acquire transaction page mode sample = (.ok (), after)) :
    (after.modeOf transaction page).isSome ∧
      (mode = .exclusive → after.modeOf transaction page = some .exclusive) := by
  cases granted : service.table.grant? transaction page mode with
  | some table =>
      rw [acquire_granted granted, Prod.mk.injEq] at acquired
      have modes := LockTable.modeOf_grant? granted transaction page
      rw [if_pos ⟨rfl, rfl⟩] at modes
      rw [← acquired.2]
      change (table.modeOf transaction page).isSome ∧
        (mode = .exclusive → table.modeOf transaction page = some .exclusive)
      rw [modes]
      refine ⟨rfl, ?_⟩
      intro exclusive
      rw [exclusive, LockMode.raise]
      split <;> rfl
  | none =>
      obtain ⟨failure, refusedAfter, refused, -⟩ := acquire_refused granted sample
      rw [refused] at acquired
      cases acquired

theorem acquire_alone {service : LockService} {transaction : TransactionId} (page : PageId)
    (mode : LockMode) (sample : Nat) (consistent : service.table.Consistent)
    (alone : ∀ other, other ≠ transaction → service.modeOf other page = none) :
    ∃ after, service.acquire transaction page mode sample = (.ok (), after) := by
  have free : (service.table.grant? transaction page mode).isSome := by
    rw [LockTable.grant?_isSome_iff consistent]
    intro other different bars
    have nothing : service.table.modeOf other page = none := alone other different
    rw [nothing] at bars
    rcases bars with bars | ⟨bars, -⟩ <;> cases bars
  obtain ⟨table, granted⟩ := Option.isSome_iff_exists.mp free
  exact ⟨_, acquire_granted granted sample⟩

/-! ### Releasing everything -/

theorem modeOf_foldl_release (pages : List PageId) (service : LockService)
    (transaction other : TransactionId) (place : PageId) (different : other ≠ transaction) :
    (pages.foldl (fun locks page => locks.release transaction page) service).modeOf other place =
      service.modeOf other place := by
  induction pages generalizing service with
  | nil => rfl
  | cons page pages ih =>
      rw [List.foldl_cons, ih, modeOf, modeOf, table_release, LockTable.modeOf_release,
        if_neg fun both => different both.1]

theorem modeOf_foldl_release_own (pages : List PageId) (service : LockService)
    (transaction : TransactionId) (place : PageId) :
    (pages.foldl (fun locks page => locks.release transaction page) service).modeOf transaction
        place =
      if place ∈ pages then none else service.modeOf transaction place := by
  induction pages generalizing service with
  | nil => rfl
  | cons page pages ih =>
      rw [List.foldl_cons, ih, modeOf, modeOf, table_release, LockTable.modeOf_release]
      by_cases later : place ∈ pages
      · rw [if_pos later, if_pos (List.mem_cons_of_mem page later)]
      · rw [if_neg later]
        by_cases here : place = page
        · rw [if_pos ⟨rfl, here⟩, if_pos (here ▸ List.mem_cons_self)]
        · rw [if_neg fun both => here both.2, if_neg]
          intro member
          rcases List.mem_cons.mp member with first | other
          · exact here first
          · exact later other

theorem consistent_foldl_release {service : LockService} (consistent : service.table.Consistent)
    (transaction : TransactionId) (pages : List PageId) :
    (pages.foldl (fun locks page => locks.release transaction page) service).table.Consistent := by
  induction pages generalizing service with
  | nil => exact consistent
  | cons page pages ih =>
      have released : (service.release transaction page).table.Consistent := consistent.release
      exact ih released

end LockService

end RecordStore
