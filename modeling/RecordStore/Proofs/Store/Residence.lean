import RecordStore.Proofs.Page.Reading
import RecordStore.Proofs.Store.Ending
import RecordStore.Proofs.Store.Run

set_option autoImplicit false

/-! Pages that stay cached. The cache never exceeds its capacity, and a dirty page leaves it only by
an `abort`, by a failed write of a `commit`, or by `discard`. A page is refused with `cacheFull` iff
the cache is full of dirty pages. Nothing is assumed of the files, and copies may be revised and
reinstalled in any way. -/

namespace RecordStore

/-- The action takes this dirty copy of the page out of the cache. -/
def Action.Drops (system : System) (page : PageId) (cached : PageCopy) : Action → Prop
  | .operation (.abort transaction) => system.store.holdsLock transaction page = true
  | .operation (.commit transaction) =>
      ∃ earlier later error,
        system.store.locks.table.pagesOf transaction = earlier ++ page :: later ∧
        (system.store.settlePages true transaction earlier).2.flush page cached = .error error
  | .operation (.discard other) => other = page
  | _ => False

namespace Store

structure Bounded (store : Store) (capacity : Nat) : Prop where
  capacityIs : store.capacity = capacity
  within : store.cache.size ≤ capacity
  consistent : store.locks.table.Consistent

/-- A copy of the page is cached and dirty. -/
def Unwritten (store : Store) (page : PageId) : Prop :=
  ∃ cached, store.cache[page]? = some cached ∧ cached.isClean = false

def Unlatched (store : Store) : Prop :=
  ∀ (page : PageId) (cached : PageCopy), store.cache[page]? = some cached →
    cached.latched = false

def AllDirty (store : Store) : Prop :=
  ∀ (page : PageId) (cached : PageCopy), store.cache[page]? = some cached →
    cached.isClean = false

structure Jammed (store : Store) (page : PageId) : Prop where
  absent : store.isCached page = false
  full : store.isFull = true
  dirty : store.AllDirty

variable {store after roomy : Store} {transaction : TransactionId} {page other : PageId}
  {cached changed : PageCopy} {capacity : Nat}

/-! ### Room for one page more -/

theorem room_of_makeRoom (made : store.makeRoom = (.ok (), roomy))
    (within : store.cache.size ≤ store.capacity) :
    roomy.capacity = store.capacity ∧ roomy.cache.size < store.capacity := by
  unfold makeRoom at made
  split at made
  · unfold evict at made
    cases chosen : store.victim? with
    | none =>
        rw [chosen] at made
        cases made
    | some victim =>
        obtain ⟨cached, present, -⟩ :=
          (mem_victims_iff store victim).mp (mem_victims_of_victim? chosen)
        have inside : store.cache[victim]?.isSome := by
          rw [present]
          rfl
        have some := size_pos_of_present inside
        have smaller := size_erase_of_present inside
        rw [chosen] at made
        cases made
        refine ⟨rfl, ?_⟩
        change (store.cache.erase victim).size < store.capacity
        omega
  · next open' =>
      cases made
      rw [isFull, decide_eq_true_iff, cachedCount] at open'
      exact ⟨rfl, Nat.lt_of_not_le open'⟩

namespace Bounded

theorem cleaned (bounded : store.Bounded capacity) (cleans : Cleans store after)
    (consistent : after.locks.table.Consistent) : after.Bounded capacity :=
  ⟨cleans.capacity.trans bounded.capacityIs, Nat.le_trans cleans.size bounded.within, consistent⟩

theorem withLocks (bounded : store.Bounded capacity) {locks : LockService}
    (consistent : locks.table.Consistent) :
    ({ store with locks := locks } : Store).Bounded capacity :=
  ⟨bounded.capacityIs, bounded.within, consistent⟩

/-- Installing a copy over a cached one keeps `Bounded`. -/
theorem replace (bounded : store.Bounded capacity) (present : store.cache[page]? = some cached)
    (changed : PageCopy) : (store.install page changed).Bounded capacity := by
  have size : (store.cache.insert page changed).size = store.cache.size :=
    size_insert_of_present _ (by rw [present]; rfl)
  refine ⟨bounded.capacityIs, ?_, bounded.consistent⟩
  change (store.cache.insert page changed).size ≤ capacity
  rw [size]
  exact bounded.within

theorem enter (bounded : store.Bounded capacity) (made : store.makeRoom = (.ok (), roomy))
    (page : PageId) (cached : PageCopy) : (roomy.install page cached).Bounded capacity := by
  have within : store.cache.size ≤ store.capacity := bounded.capacityIs ▸ bounded.within
  obtain ⟨same, room⟩ := room_of_makeRoom made within
  rw [bounded.capacityIs] at same room
  refine ⟨same, ?_, ?_⟩
  · exact Nat.le_trans Std.ExtTreeMap.size_insert_le room
  · change roomy.locks.table.Consistent
    rw [locks_of_makeRoom made]
    exact bounded.consistent

theorem works (works : Works transaction store after) (bounded : store.Bounded capacity) :
    after.Bounded capacity := by
  induction works with
  | still store => exact bounded
  | andThen earlier later first second => exact second (first bounded)
  | lock stronger => exact bounded.withLocks (stronger.consistent bounded.consistent)
  | append allocated => exact ⟨bounded.capacityIs, bounded.within, bounded.consistent⟩
  | evict store =>
      refine bounded.cleaned store.cleans_evict ?_
      rw [locks_evict]
      exact bounded.consistent
  | @read store roomy page table content absent made found =>
      have entered := bounded.enter made page ⟨roomy.nextSerial, content, false⟩
      exact ⟨entered.capacityIs, entered.within, entered.consistent⟩
  | change present alone dirtier => exact bounded.replace present _
  | enter made alone dirtier => exact bounded.enter made _ _

theorem update (bounded : store.Bounded capacity) (page : PageId) (changed : PageCopy) :
    (store.update page changed).Bounded capacity := by
  unfold Store.update
  split
  · next present =>
      split
      · exact bounded.replace present changed
      · exact bounded
  · exact bounded

theorem reinstalls (bounded : store.Bounded capacity)
    (back : Reinstalls store page cached after) : after.Bounded capacity := by
  cases back with
  | replaced present => exact bounded.replace present cached
  | refused => exact bounded.works (store.works_makeRoom TransactionId.first)
  | entered made => exact bounded.enter made page cached

theorem complete (bounded : store.Bounded capacity) (commits : Bool)
    (transaction : TransactionId) : (store.complete commits transaction).2.Bounded capacity := by
  have cleans := store.cleans_settlePages commits transaction
    (store.locks.table.pagesOf transaction)
  have released := LockService.consistent_foldl_release bounded.consistent transaction
    (store.locks.table.pagesOf transaction)
  rw [complete_eq]
  refine (bounded.cleaned cleans ?_).withLocks ?_
  · rw [locks_settlePages]
    exact released
  · rw [locks_settlePages]
    exact released.releaseAll

theorem flushEach (bounded : store.Bounded capacity) (pages : List PageId) :
    (store.flushEach pages).2.Bounded capacity := by
  refine flushEach_keeps (fun store => store.Bounded capacity) ?_ pages bounded
  intro page store after writes kept
  refine kept.cleaned writes.cleans ?_
  rw [writes.locks_eq]
  exact kept.consistent

theorem perform {system : System} (bounded : system.store.Bounded capacity)
    (operation : Operation) : (system.perform operation).2.store.Bounded capacity := by
  have goes := system.works_perform operation
  cases operation with
  | begin => exact ⟨bounded.capacityIs, bounded.within, bounded.consistent⟩
  | commit transaction => exact bounded.complete true transaction
  | abort transaction => exact bounded.complete false transaction
  | release transaction page => exact bounded.withLocks bounded.consistent.release
  | discard page => exact bounded.cleaned (cleans_discard system.store page) bounded.consistent
  | flush transaction => exact bounded.flushEach _
  | flushAll => exact bounded.flushEach _
  | get | insert | delete | scan | next | rewind | evict =>
      obtain ⟨transaction, works⟩ := goes trivial
      exact bounded.works works

theorem act {system : System} (bounded : system.store.Bounded capacity) (action : Action) :
    (system.act action).store.Bounded capacity := by
  cases action with
  | operation operation => exact bounded.perform operation
  | lock call =>
      exact bounded.withLocks (bounded.consistent.rewrites
        (system.store.locks.rewrites_perform call))
  | fetch page => exact bounded.works (system.store.works_fetch TransactionId.first page)
  | register table => exact ⟨bounded.capacityIs, bounded.within, bounded.consistent⟩
  | revise page changed => exact bounded.update page changed
  | reinstall transaction page changed =>
      have back := system.store.reinstalls_installDirty transaction page changed
      exact (bounded.update page _).reinstalls back
  | disturb directory => exact ⟨bounded.capacityIs, bounded.within, bounded.consistent⟩

end Bounded

/-! ### Dirty pages stay -/

theorem isCached_of_present (present : store.cache[page]? = some cached) :
    store.isCached page = true := by
  rw [isCached, contains_eq_isSome, present]
  rfl

theorem isClean_of_dirtier (same : changed.page.dirtier = cached.page.dirtier) :
    changed.isClean = cached.isClean := by
  rw [PageCopy.isClean, PageCopy.isClean, Page.isDirty, Page.isDirty, same]

namespace Unwritten

theorem isCached (unwritten : store.Unwritten page) : store.isCached page = true := by
  obtain ⟨cached, present, -⟩ := unwritten
  exact isCached_of_present present

theorem install (unwritten : store.Unwritten page)
    (dirty : other = page → cached.isClean = false) :
    (store.install other cached).Unwritten page := by
  by_cases same : other = page
  · refine ⟨cached, ?_, dirty same⟩
    rw [lookup_install, if_pos same]
  · obtain ⟨copy, present, dirty⟩ := unwritten
    refine ⟨copy, ?_, dirty⟩
    rw [lookup_install, if_neg same]
    exact present

/-- `evict` keeps `Unwritten`. -/
theorem evict (unwritten : store.Unwritten page) : store.evict.2.Unwritten page := by
  rcases store.evict_cases with same | ⟨victim, copy, chosen, evictable, same⟩
  · rw [same]
    exact unwritten
  · obtain ⟨cached, present, dirty⟩ := unwritten
    rw [same]
    refine ⟨cached, ?_, dirty⟩
    rw [lookup_discard, if_neg]
    · exact present
    · rintro rfl
      rw [chosen] at present
      cases present
      rw [PageCopy.isEvictable, dirty, Bool.and_false] at evictable
      cases evictable

theorem makeRoom (unwritten : store.Unwritten page) (made : store.makeRoom = (.ok (), roomy)) :
    roomy.Unwritten page := by
  rcases room_cases made with rfl | rfl
  · exact unwritten
  · exact unwritten.evict

theorem works (works : Works transaction store after) (unwritten : store.Unwritten page) :
    after.Unwritten page := by
  induction works with
  | still store => exact unwritten
  | andThen earlier later first second => exact second (first unwritten)
  | lock stronger => exact unwritten
  | append allocated => exact unwritten
  | evict store => exact unwritten.evict
  | @read store roomy loaded table content absent made found =>
      have room := unwritten.makeRoom made
      have counted : ({ roomy with nextSerial := roomy.nextSerial + 1 } : Store).Unwritten page :=
        room
      refine counted.install fun same => ?_
      obtain ⟨cached, present, -⟩ := unwritten
      rw [← same, absent] at present
      cases present
  | @change store other former changed present alone dirtier =>
      refine unwritten.install fun same => ?_
      rcases dirtier with before | now
      · obtain ⟨cached, found, dirty⟩ := unwritten
        rw [← same, present] at found
        cases found
        rw [isClean_of_dirtier before]
        exact dirty
      · exact PageCopy.isClean_eq_false now
  | @enter store roomy entered changed made alone dirtier =>
      exact (unwritten.makeRoom made).install fun _ => PageCopy.isClean_eq_false dirtier

theorem update (unwritten : store.Unwritten page) (dirty : changed.isClean = false)
    (other : PageId) : (store.update other changed).Unwritten page := by
  unfold Store.update
  split
  · split
    · exact unwritten.install fun _ => dirty
    · exact unwritten
  · exact unwritten

theorem reinstalls (unwritten : store.Unwritten page) (dirty : cached.isClean = false)
    (back : Reinstalls store other cached after) : after.Unwritten page := by
  cases back with
  | replaced present => exact unwritten.install fun _ => dirty
  | refused => exact unwritten.works (store.works_makeRoom TransactionId.first)
  | entered made => exact (unwritten.makeRoom made).install fun _ => dirty

end Unwritten

theorem isCached_install (inside : store.isCached page = true) (other : PageId)
    (cached : PageCopy) : (store.install other cached).isCached page = true := by
  rw [isCached, contains_eq_isSome] at inside ⊢
  rw [lookup_install]
  split
  · rfl
  · exact inside

theorem isCached_update (inside : store.isCached page = true) (other : PageId)
    (changed : PageCopy) : (store.update other changed).isCached page = true := by
  unfold update
  split
  · split
    · exact isCached_install inside other changed
    · exact inside
  · exact inside

theorem isCached_flushEach (store : Store) (pages : List PageId)
    (inside : store.isCached page = true) : (store.flushEach pages).2.isCached page = true := by
  refine flushEach_keeps (fun store => store.isCached page = true) ?_ pages inside
  intro other store after writes kept
  rw [writes.isCached_eq]
  exact kept

end Store

namespace System

variable {system : System} {page : PageId} {cached : PageCopy} {capacity : Nat}

theorem stays {store : Store} (still : store.isCached page = true) :
    store.isCached page = false ↔ False := by
  rw [still]
  exact ⟨Bool.noConfusion, False.elim⟩

/-- Exactly the operations that `Drops` a dirty page take it out of the cache. -/
theorem gone_iff_perform (bounded : system.store.Bounded capacity)
    (present : system.store.cache[page]? = some cached) (dirty : cached.isClean = false)
    (operation : Operation) :
    (system.perform operation).2.store.isCached page = false ↔
      (Action.operation operation).Drops system page cached := by
  have inside : system.store.isCached page = true := Store.isCached_of_present present
  have listed := LockTable.mem_pagesOf_iff bounded.consistent
  have goes := system.works_perform operation
  cases operation with
  | begin => exact stays inside
  | commit transaction =>
      change (system.store.complete true transaction).2.isCached page = false ↔ _
      constructor
      · intro gone
        obtain ⟨earlier, later, order⟩ := List.append_of_mem (Store.listed_of_gone present gone)
        obtain ⟨error, failed⟩ := (Store.gone_complete order present dirty).mp gone rfl
        exact ⟨earlier, later, error, order, failed⟩
      · rintro ⟨earlier, later, error, order, failed⟩
        exact (Store.gone_complete order present dirty).mpr fun _ => ⟨error, failed⟩
  | abort transaction =>
      change (system.store.complete false transaction).2.isCached page = false ↔
        system.store.locks.table.holds transaction page = true
      rw [LockTable.holds_eq, ← listed]
      constructor
      · exact Store.listed_of_gone present
      · intro member
        obtain ⟨earlier, later, order⟩ := List.append_of_mem member
        exact (Store.gone_complete order present dirty).mpr Bool.noConfusion
  | release transaction other => exact stays inside
  | discard other =>
      change (system.store.discard other).isCached page = false ↔ other = page
      rw [Store.isCached, contains_eq_isSome, Store.lookup_discard]
      by_cases same : other = page
      · rw [if_pos same]
        exact ⟨fun _ => same, fun _ => rfl⟩
      · rw [if_neg same, present]
        exact ⟨Bool.noConfusion, fun equal => absurd equal same⟩
  | flush transaction => exact stays (system.store.isCached_flushEach _ inside)
  | flushAll => exact stays (system.store.isCached_flushEach _ inside)
  | get | insert | delete | scan | next | rewind | evict =>
      obtain ⟨transaction, works⟩ := goes trivial
      exact stays (Store.Unwritten.works works ⟨cached, present, dirty⟩).isCached

theorem gone_iff (bounded : system.store.Bounded capacity)
    (present : system.store.cache[page]? = some cached) (dirty : cached.isClean = false)
    (action : Action) :
    (system.act action).store.isCached page = false ↔ action.Drops system page cached := by
  have inside : system.store.isCached page = true := Store.isCached_of_present present
  have unwritten : system.store.Unwritten page := ⟨cached, present, dirty⟩
  cases action with
  | operation operation => exact gone_iff_perform bounded present dirty operation
  | lock call => exact stays inside
  | fetch other =>
      exact stays (unwritten.works (system.store.works_fetch TransactionId.first other)).isCached
  | register table => exact stays inside
  | revise other changed => exact stays (Store.isCached_update inside other changed)
  | reinstall transaction other changed =>
      -- The copy installed is dirty, and so is the one that it replaces.
      have back := system.store.reinstalls_installDirty transaction other changed
      exact stays ((unwritten.update rfl other).reinstalls rfl back).isCached
  | disturb directory => exact stays inside

end System

namespace Store

variable {store : Store} {page : PageId} {capacity : Nat}

/-! ### Refusals for want of room -/

theorem victim?_eq_none_iff_allDirty (unlatched : store.Unlatched) :
    store.victim? = none ↔ store.AllDirty := by
  rw [victim?_eq_none_iff, List.eq_nil_iff_forall_not_mem]
  constructor
  · intro none page cached present
    rw [← Bool.not_eq_true]
    intro clean
    refine none page ((mem_victims_iff store page).mpr ⟨cached, present, ?_⟩)
    rw [PageCopy.isEvictable, unlatched page cached present, clean]
    rfl
  · intro dirty page member
    obtain ⟨cached, present, evictable⟩ := (mem_victims_iff store page).mp member
    rw [PageCopy.isEvictable, dirty page cached present, Bool.and_false] at evictable
    cases evictable

theorem evict_refused_iff (unlatched : store.Unlatched) (error : StorageError) :
    store.evict.1 = .error error ↔ error = .cacheFull store.capacity ∧ store.AllDirty := by
  rw [← victim?_eq_none_iff_allDirty unlatched]
  unfold evict
  cases store.victim? with
  | none =>
      constructor
      · intro refused
        cases refused
        exact ⟨rfl, rfl⟩
      · rintro ⟨rfl, -⟩
        rfl
  | some victim =>
      constructor
      · intro refused
        cases refused
      · rintro ⟨-, none⟩
        cases none

theorem makeRoom_refused_iff (unlatched : store.Unlatched) (error : StorageError) :
    store.makeRoom.1 = .error error ↔
      error = .cacheFull store.capacity ∧ store.isFull = true ∧ store.AllDirty := by
  unfold makeRoom
  by_cases full : store.isFull = true
  · rw [if_pos full, evict_refused_iff unlatched]
    exact ⟨fun both => ⟨both.1, full, both.2⟩, fun all => ⟨all.1, all.2.2⟩⟩
  · rw [if_neg full]
    constructor
    · intro refused
      cases refused
    · rintro ⟨-, filled, -⟩
      exact absurd filled full

/-- A page of a registered table is refused for want of room iff it is not cached and the cache is
full of dirty pages. -/
theorem fetch_refused_iff {table : Table} (known : store.tables[page.table]? = some table)
    (unlatched : store.Unlatched) (number : Nat) :
    (store.fetch page).1 = .error (.refused (.cacheFull number)) ↔
      number = store.capacity ∧ store.Jammed page := by
  have found : store.table? page.table = .ok table := by
    rw [table?, known]
  unfold fetch
  cases present : store.cache[page]? with
  | some cached =>
      constructor
      · intro refused
        cases refused
      · rintro ⟨-, jammed⟩
        have absent := jammed.absent
        rw [isCached_of_present present] at absent
        cases absent
  | none =>
      have absent : store.isCached page = false := by
        rw [isCached, contains_eq_isSome, present]
        rfl
      have refusal := makeRoom_refused_iff unlatched
      unfold load
      rw [found]
      simp only
      rcases made : store.makeRoom with ⟨error | done, roomy⟩
      · rw [made] at refusal
        obtain ⟨which, full, dirty⟩ := (refusal error).mp rfl
        simp only [which, Except.error.injEq, Failure.refused.injEq, StorageError.cacheFull.injEq]
        exact ⟨fun same => ⟨same.symm, absent, full, dirty⟩, fun both => both.1.symm⟩
      · have free : ¬ store.Jammed page := by
          intro jammed
          have refused := (refusal _).mpr ⟨rfl, jammed.full, jammed.dirty⟩
          rw [made] at refused
          cases refused
        refine ⟨fun refused => ?_, fun both => absurd both.2 free⟩
        cases read : table.readPage roomy.directory page with
        | error failure =>
            simp only [read, Except.error.injEq] at refused
            have unread := Table.unread_of_readPage read
            rw [refused] at unread
            cases unread with
            | unreadable unreadable => cases unreadable
        | ok content =>
            simp only [read] at refused
            cases refused

theorem getPage_refused_iff {table : Table} (known : store.tables[page.table]? = some table)
    (unlatched : store.Unlatched) {transaction : TransactionId} {access : Access}
    (granted : (store.acquire transaction page access.mode).1 = .ok ()) (number : Nat) :
    (store.getPage transaction page access).1 = .error (.refused (.cacheFull number)) ↔
      number = store.capacity ∧ store.Jammed page := by
  unfold getPage acquire at *
  rcases asked : store.locks.acquire transaction page access.mode 0 with ⟨failure | done, locks⟩
  · rw [asked] at granted
    cases granted
  · have same : store.Jammed page ↔ ({ store with locks := locks } : Store).Jammed page :=
      ⟨fun jammed => ⟨jammed.absent, jammed.full, jammed.dirty⟩,
        fun jammed => ⟨jammed.absent, jammed.full, jammed.dirty⟩⟩
    rw [same]
    exact @fetch_refused_iff { store with locks := locks } page table known unlatched number

theorem Unlatched.of_list
    (all : (store.cache.toList.all fun entry => !entry.2.latched) = true) : store.Unlatched := by
  intro page cached present
  have member := Std.ExtTreeMap.mem_toList_iff_getElem?_eq_some.mpr present
  have open' := List.all_eq_true.mp all (page, cached) member
  rwa [Bool.not_eq_true'] at open'

theorem Bounded.untouched (directory : Directory) (capacity : Nat) (range : WaitRange)
    (preference : Preference) :
    (System.untouched directory capacity range preference).store.Bounded capacity :=
  ⟨rfl, Nat.zero_le capacity, LockTable.Consistent.empty⟩

end Store

namespace System

/-- The cache keeps within its capacity, a dirty page leaves it only by an action that `Drops` it,
and `cacheFull` is the answer iff every cached page is dirty. -/
structure Resident (system : System) (capacity : Nat) : Prop where
  counted : system.store.cachedCount ≤ capacity
  gone : ∀ (action : Action) (page : PageId) (cached : PageCopy),
    system.store.cache[page]? = some cached → cached.isClean = false →
    ((system.act action).store.isCached page = false ↔ action.Drops system page cached)
  got : system.store.Unlatched → ∀ (transaction : TransactionId) (page : PageId) (access : Access)
    (table : Table), system.store.tables[page.table]? = some table →
    (system.store.acquire transaction page access.mode).1 = .ok () → ∀ number : Nat,
    ((system.store.getPage transaction page access).1 = .error (.refused (.cacheFull number)) ↔
      number = capacity ∧ system.store.Jammed page)
  fetched : system.store.Unlatched → ∀ (page : PageId) (table : Table),
    system.store.tables[page.table]? = some table → ∀ number : Nat,
    ((system.store.fetch page).1 = .error (.refused (.cacheFull number)) ↔
      number = capacity ∧ system.store.Jammed page)
  evicted : system.store.Unlatched → ∀ error : StorageError,
    (system.store.evict.1 = .error error ↔
      error = .cacheFull capacity ∧ system.store.AllDirty)

theorem Course.bounded {start system : System} {allowed : System → Action → Prop} {capacity : Nat}
    (course : Course allowed start system) (bounded : start.store.Bounded capacity) :
    system.store.Bounded capacity := by
  induction course with
  | start => exact bounded
  | step action earlier permitted ih => exact ih.act action

theorem cache_keeps_dirty_pages {directory : Directory} {capacity : Nat} {range : WaitRange}
    {preference : Preference} {system : System}
    (course : Course (fun _ _ => True) (untouched directory capacity range preference) system) :
    system.Resident capacity := by
  have bounded := course.bounded (Store.Bounded.untouched directory capacity range preference)
  constructor
  · exact bounded.within
  · intro action page cached present dirty
    exact gone_iff bounded present dirty action
  · intro unlatched transaction page access table known granted number
    rw [← bounded.capacityIs]
    exact Store.getPage_refused_iff known unlatched granted number
  · intro unlatched page table known number
    rw [← bounded.capacityIs]
    exact Store.fetch_refused_iff known unlatched number
  · intro unlatched error
    rw [← bounded.capacityIs]
    exact Store.evict_refused_iff unlatched error

/-- With a capacity of one, a dirty page keeps every other out until its transaction aborts. -/
theorem cache_keeps_dirty_pages_small :
    ∃ system : System,
      Course (fun _ _ => True) (untouched small.store.directory 1 .standard fun _ _ => 0) system ∧
      system.Resident 1 ∧ system.store.cachedCount = 1 ∧
      (system.store.fetch (numbers.page 1)).1 = .error (.refused (.cacheFull 1)) ∧
      system.store.Jammed (numbers.page 1) ∧
      (system.act (.operation .evict)).store.isCached (numbers.page 0) = true ∧
      (system.act (.operation (.abort ⟨1⟩))).store.isCached (numbers.page 0) = false := by
  have course := Course.step (.register numbers)
    (.start : Course (fun _ _ => True)
      (untouched small.store.directory 1 .standard fun _ _ => 0) _) trivial
  have course := course.step
    (.operation (.insert ⟨1⟩ ⟨7⟩ ⟨numbers.schema, [.int 5], none, rfl⟩)) trivial
  have resident := cache_keeps_dirty_pages course
  refine ⟨_, course, resident, rfl, rfl, ?_, rfl, rfl⟩
  have fetched := resident.fetched (.of_list (by decide +kernel)) (numbers.page 1) numbers rfl 1
  exact (fetched.mp rfl).2

end System

end RecordStore
