import RecordStore.Proofs.Store.Backing
import RecordStore.Proofs.Store.Residence

set_option autoImplicit false

/-! Commits with pages that cannot be written, because their table was registered again with another
page size or they were cached without a table. A commit attempts every dirty page that its
transaction has locked, in ascending order, drops those that fail with their files unchanged, and
returns the first error. -/

namespace RecordStore

/-- A table may replace the one with its id but shares no file with another, and a changed copy
keeps its page id. -/
def Action.Addressed (system : System) : Action → Prop
  | .register table =>
      ∀ (id : TableId) (other : Table), id ≠ table.id → system.store.tables[id]? = some other →
        other.pages.file ≠ table.pages.file
  | .revise page changed => changed.page.id = page
  | .reinstall _ page changed => changed.page.id = page
  | _ => True

structure Attempt where
  page : PageId
  copy : PageCopy
  error : Option StorageError

def Attempt.answer (attempts : List Attempt) : Except StorageError Unit :=
  match attempts.findSome? Attempt.error with
  | some error => .error error
  | none => .ok ()

namespace Store

variable {store after roomy : Store} {transaction : TransactionId} {page : PageId}
  {cached : PageCopy} {table : Table}

/-! ### Labelled copies -/

structure Labelled (store : Store) : Prop where
  distinct : Distinct store.tables
  named : ∀ (page : PageId) (cached : PageCopy), store.cache[page]? = some cached →
    cached.page.id = page

namespace Labelled

theorem install (labelled : store.Labelled) (named : cached.page.id = page) :
    (store.install page cached).Labelled := by
  refine ⟨labelled.distinct, fun other copy present => ?_⟩
  rw [lookup_install] at present
  split at present
  · next same =>
      cases present
      exact named.trans same
  · exact labelled.named other copy present

theorem discard (labelled : store.Labelled) (page : PageId) : (store.discard page).Labelled := by
  refine ⟨labelled.distinct, fun other copy present => ?_⟩
  rw [lookup_discard] at present
  split at present
  · cases present
  · exact labelled.named other copy present

theorem evict (labelled : store.Labelled) : store.evict.2.Labelled := by
  rcases store.evict_cases with same | ⟨victim, cached, -, -, same⟩
  · rw [same]
    exact labelled
  · rw [same]
    exact labelled.discard victim

theorem makeRoom (labelled : store.Labelled) (made : store.makeRoom = (.ok (), roomy)) :
    roomy.Labelled := by
  rcases room_cases made with rfl | rfl
  · exact labelled
  · exact labelled.evict

theorem visits (visits : Visits transaction store after) (labelled : store.Labelled) :
    after.Labelled := by
  induction visits with
  | still store => exact labelled
  | andThen earlier later first second => exact second (first labelled)
  | lock stronger => exact ⟨labelled.distinct, labelled.named⟩
  | append known allocated => exact ⟨labelled.distinct, labelled.named⟩
  | evict store => exact labelled.evict
  | @read store roomy page table content absent known made read =>
      have room := labelled.makeRoom made
      have counted : ({ roomy with nextSerial := roomy.nextSerial + 1 } : Store).Labelled :=
        ⟨room.distinct, room.named⟩
      exact counted.install (Table.readPage_ok read).2.2.idIs

theorem flush (labelled : store.Labelled) (present : store.cache[page]? = some cached)
    (flushed : store.flush page cached = .ok after) : after.Labelled := by
  rcases flush_ok flushed with ⟨-, rfl⟩ | ⟨-, table, directory, -, -, -, rfl⟩
  · exact labelled
  · have moved : ({ store with directory := directory } : Store).Labelled :=
      ⟨labelled.distinct, labelled.named⟩
    exact moved.install (labelled.named page cached present)

theorem deeds (deeds : Deeds store after) (labelled : store.Labelled) : after.Labelled := by
  induction deeds with
  | still store => exact labelled
  | andThen earlier later first second => exact second (first labelled)
  | visit visits => exact labelled.visits visits
  | @change store transaction page cached content writable revises =>
      exact labelled.install (revises.id_eq.trans (labelled.named page cached writable.present))
  | write present flushed => exact labelled.flush present flushed
  | drop store page => exact labelled.discard page
  | relock store locks => exact ⟨labelled.distinct, labelled.named⟩
  | begin store => exact ⟨labelled.distinct, labelled.named⟩

theorem update (labelled : store.Labelled) (named : cached.page.id = page) :
    (store.update page cached).Labelled := by
  unfold Store.update
  split
  · split
    · exact labelled.install named
    · exact labelled
  · exact labelled

theorem reinstalls (labelled : store.Labelled) (named : cached.page.id = page)
    (back : Reinstalls store page cached after) : after.Labelled := by
  cases back with
  | replaced present => exact labelled.install named
  | refused => exact labelled.visits (store.visits_makeRoom TransactionId.first)
  | entered made => exact (labelled.makeRoom made).install named

theorem act {system : System} (labelled : system.store.Labelled) (action : Action)
    (addressed : action.Addressed system) : (system.act action).store.Labelled := by
  cases action with
  | operation operation => exact labelled.deeds (system.deeds_perform operation)
  | lock call => exact ⟨labelled.distinct, labelled.named⟩
  | fetch page => exact labelled.visits (system.store.visits_fetch TransactionId.first page)
  | register table => exact ⟨labelled.distinct.withTable addressed, labelled.named⟩
  | revise page changed => exact labelled.update addressed
  | reinstall transaction page changed =>
      have named : (markedCopy changed changed.page transaction).page.id = page := addressed
      exact (labelled.update named).reinstalls named
        (system.store.reinstalls_installDirty transaction page changed)
  | disturb directory => exact ⟨labelled.distinct, labelled.named⟩

theorem untouched (directory : Directory) (capacity : Nat) (range : WaitRange)
    (preference : Preference) :
    (System.untouched directory capacity range preference).store.Labelled := by
  have backed := Backed.untouched directory capacity range preference
  refine ⟨backed.distinct, fun page cached present => ?_⟩
  obtain ⟨table, known, faithful⟩ := backed.faithful page cached present
  exact faithful.idIs

end Labelled

/-! ### One attempt after another -/

inductive Attempts : Store → List Attempt → Store → Prop where
  | done (store : Store) : Attempts store [] store
  | written {store next after : Store} {page : PageId} {cached : PageCopy}
      {attempts : List Attempt} : store.cache[page]? = some cached → cached.isClean = false →
      store.flush page cached = .ok next → Attempts next attempts after →
      Attempts store (⟨page, cached, none⟩ :: attempts) after
  | refused {store after : Store} {page : PageId} {cached : PageCopy} {error : StorageError}
      {attempts : List Attempt} : store.cache[page]? = some cached → cached.isClean = false →
      store.flush page cached = .error error → Attempts (store.discard page) attempts after →
      Attempts store (⟨page, cached, some error⟩ :: attempts) after

theorem flush_withLocks (store : Store) (locks : LockService) (page : PageId)
    (cached : PageCopy) :
    ({ store with locks := locks } : Store).flush page cached =
      (store.flush page cached).map fun after => { after with locks := locks } := by
  unfold flush table?
  cases cached.isClean with
  | true => rfl
  | false =>
      cases store.tables[cached.page.id.table]? with
      | none => rfl
      | some table =>
          simp only [Bool.false_eq_true, if_false]
          cases table.writePage store.directory cached.page <;> rfl

theorem lookup_flush_other {other : PageId} (flushed : store.flush page cached = .ok after)
    (different : page ≠ other) : after.cache[other]? = store.cache[other]? := by
  rcases flush_ok flushed with ⟨-, rfl⟩ | ⟨-, table, directory, -, -, -, rfl⟩
  · rfl
  · exact (lookup_install _ _ _ _).trans (if_neg different)

theorem lookup_flush (dirty : cached.isClean = false)
    (flushed : store.flush page cached = .ok after) :
    after.cache[page]? = some cached.flushed := by
  rcases flush_ok flushed with ⟨clean, -⟩ | ⟨-, table, directory, -, -, -, rfl⟩
  · rw [clean] at dirty
    cases dirty
  · exact (lookup_install _ _ _ _).trans (if_pos rfl)

/-- Whole pages keep their bytes when another page is flushed. -/
theorem bytesAt_flush_other (labelled : store.Labelled)
    (present : store.cache[page]? = some cached) (flushed : store.flush page cached = .ok after)
    {id : TableId} (known : store.tables[id]? = some table) {number : UInt32}
    (whole : (table.pages.bytesAt store.directory number.toNat).length = table.pages.pageSize)
    (different : page ≠ ⟨id, number⟩) :
    table.pages.bytesAt after.directory number.toNat =
      table.pages.bytesAt store.directory number.toNat := by
  rcases flush_ok flushed with ⟨-, rfl⟩ | ⟨-, other, directory, otherKnown, -, written, rfl⟩
  · rfl
  · rw [labelled.named page cached present] at otherKnown written
    by_cases same : page.table = id
    · subst same
      obtain rfl : table = other := Option.some.inj (known.symm.trans otherKnown)
      refine PageFile.bytesAt_write_kept written whole fun here => different ?_
      exact congrArg (PageId.mk page.table) (UInt32.toNat_inj.mp here).symm
    · have files : other.pages.file ≠ table.pages.file :=
        fun equal => same (labelled.distinct.apart _ _ _ _ otherKnown known equal)
      have content :
          directory.content table.pages.file = store.directory.content table.pages.file :=
        PageFile.content_write_other written files
      rw [PageFile.bytesAt, PageFile.bytesAt]
      exact congrArg (Content.slice · _ _) content

namespace Attempts

variable {attempts : List Attempt}

theorem withLocks (made : Attempts store attempts after) (locks : LockService) :
    Attempts { store with locks := locks } attempts { after with locks := locks } := by
  induction made with
  | done store => exact .done _
  | @written store next after page cached attempts present dirty flushed later ih =>
      refine .written present dirty ?_ ih
      rw [flush_withLocks, flushed]
      rfl
  | @refused store after page cached error attempts present dirty failed later ih =>
      refine .refused present dirty ?_ ih
      rw [flush_withLocks, failed]
      rfl

theorem lookup_other (made : Attempts store attempts after)
    (apart : ∀ attempt ∈ attempts, attempt.page ≠ page) :
    after.cache[page]? = store.cache[page]? := by
  induction made with
  | done store => rfl
  | written present dirty flushed later ih =>
      rw [ih fun attempt member => apart attempt (List.mem_cons_of_mem _ member)]
      exact lookup_flush_other flushed (apart _ List.mem_cons_self)
  | refused present dirty failed later ih =>
      rw [ih fun attempt member => apart attempt (List.mem_cons_of_mem _ member), lookup_discard,
        if_neg (apart _ List.mem_cons_self)]

/-- With one attempt for each page, the cache ends up with what that attempt left. -/
theorem lookup_attempted (made : Attempts store attempts after)
    (distinct : (attempts.map Attempt.page).Nodup) :
    ∀ attempt ∈ attempts, after.cache[attempt.page]? =
      match attempt.error with
      | none => some attempt.copy.flushed
      | some _ => none := by
  induction made with
  | done store => exact nofun
  | @written store next after page cached attempts present dirty flushed later ih =>
      rw [List.map_cons, List.nodup_cons] at distinct
      rintro attempt (_ | ⟨_, member⟩)
      · rw [later.lookup_other fun other member same =>
          distinct.1 (List.mem_map.mpr ⟨other, member, same⟩)]
        exact lookup_flush dirty flushed
      · exact ih distinct.2 attempt member
  | @refused store after page cached error attempts present dirty failed later ih =>
      rw [List.map_cons, List.nodup_cons] at distinct
      rintro attempt (_ | ⟨_, member⟩)
      · rw [later.lookup_other fun other member same =>
          distinct.1 (List.mem_map.mpr ⟨other, member, same⟩), lookup_discard, if_pos rfl]
      · exact ih distinct.2 attempt member

theorem tables_eq (made : Attempts store attempts after) : after.tables = store.tables := by
  induction made with
  | done store => rfl
  | written present dirty flushed later ih => exact ih.trans (tables_flush flushed)
  | refused present dirty failed later ih => exact ih

theorem bytesAt_other (made : Attempts store attempts after) (labelled : store.Labelled)
    {id : TableId} (known : store.tables[id]? = some table) {number : UInt32}
    (whole : (table.pages.bytesAt store.directory number.toNat).length = table.pages.pageSize)
    (apart : ∀ attempt ∈ attempts, attempt.page ≠ ⟨id, number⟩) :
    table.pages.bytesAt after.directory number.toNat =
      table.pages.bytesAt store.directory number.toNat := by
  induction made with
  | done store => rfl
  | written present dirty flushed later ih =>
      have kept := bytesAt_flush_other labelled present flushed known whole
        (apart _ List.mem_cons_self)
      rw [← kept] at whole ⊢
      rw [← tables_flush flushed] at known
      exact ih (labelled.flush present flushed) known whole fun attempt member =>
        apart attempt (List.mem_cons_of_mem _ member)
  | refused present dirty failed later ih =>
      exact ih (labelled.discard _) known whole fun attempt member =>
        apart attempt (List.mem_cons_of_mem _ member)

theorem bytesAt_attempted (made : Attempts store attempts after) (labelled : store.Labelled)
    (distinct : (attempts.map Attempt.page).Nodup) :
    ∀ attempt ∈ attempts, attempt.error = none → ∃ table,
      store.tables[attempt.page.table]? = some table ∧
        table.pages.bytesAt after.directory attempt.page.number.toNat =
          attempt.copy.page.encode := by
  induction made with
  | done store => exact nofun
  | @written store next after page cached attempts present dirty flushed later ih =>
      rw [List.map_cons, List.nodup_cons] at distinct
      rintro attempt (_ | ⟨_, member⟩) none
      · rcases flush_ok flushed with ⟨clean, -⟩ | ⟨-, table, directory, known, -, written, rfl⟩
        · rw [clean] at dirty
          cases dirty
        · have named := labelled.named page cached present
          rw [named] at known written
          have bytes := PageFile.bytesAt_write_same written
          refine ⟨table, known, ?_⟩
          rw [← bytes]
          refine later.bytesAt_other (labelled.flush present flushed) known ?_ ?_
          · change (table.pages.bytesAt directory page.number.toNat).length = _
            rw [bytes]
            exact (PageFile.write_ok_iff.mp written).1
          · exact fun other member same => distinct.1 (List.mem_map.mpr ⟨other, member, same⟩)
      · rw [← tables_flush flushed]
        exact ih (labelled.flush present flushed) distinct.2 attempt member none
  | @refused store after page cached error attempts present dirty failed later ih =>
      rw [List.map_cons, List.nodup_cons] at distinct
      rintro attempt (_ | ⟨_, member⟩) none
      · cases none
      · exact ih (labelled.discard page) distinct.2 attempt member none

/-- Bytes outside the attempted pages are unchanged. -/
theorem byteAt? (made : Attempts store attempts after) {file : FileId} {offset : Nat}
    {byte : UInt8} (present : store.directory.byteAt? file offset = some byte)
    (outside : ∀ attempt ∈ attempts, attempt.error = none →
      ¬ store.Spans attempt.copy file offset) :
    after.directory.byteAt? file offset = some byte := by
  induction made with
  | done store => exact present
  | @written store next after page cached attempts found dirty flushed later ih =>
      refine ih (byteAt?_flush flushed present (outside _ List.mem_cons_self rfl)) ?_
      intro attempt member none spans
      apply outside attempt (List.mem_cons_of_mem _ member) none
      rw [Spans, ← tables_flush flushed]
      exact spans
  | refused found dirty failed later ih =>
      exact ih present fun attempt member => outside attempt (List.mem_cons_of_mem _ member)

end Attempts

section Every

variable {pages : List PageId} {attempts : List Attempt}

theorem every_pass (settled : store.Settled page)
    (every : ∀ (other : PageId) (copy : PageCopy),
      (∃ attempt ∈ attempts, attempt.page = other ∧ attempt.copy = copy) ↔
        other ∈ pages ∧ store.cache[other]? = some copy ∧ copy.isClean = false)
    (other : PageId) (copy : PageCopy) :
    (∃ attempt ∈ attempts, attempt.page = other ∧ attempt.copy = copy) ↔
      other ∈ page :: pages ∧ store.cache[other]? = some copy ∧ copy.isClean = false := by
  rw [every, List.mem_cons]
  constructor
  · rintro ⟨member, present, dirty⟩
    exact ⟨.inr member, present, dirty⟩
  · rintro ⟨rfl | member, present, dirty⟩
    · rw [settled copy present] at dirty
      cases dirty
    · exact ⟨member, present, dirty⟩

theorem every_attempt {next : Store} {error : Option StorageError}
    (present : store.cache[page]? = some cached) (dirty : cached.isClean = false)
    (others : ∀ other ∈ pages, next.cache[other]? = store.cache[other]?)
    (every : ∀ (other : PageId) (copy : PageCopy),
      (∃ attempt ∈ attempts, attempt.page = other ∧ attempt.copy = copy) ↔
        other ∈ pages ∧ next.cache[other]? = some copy ∧ copy.isClean = false)
    (other : PageId) (copy : PageCopy) :
    (∃ attempt ∈ (⟨page, cached, error⟩ : Attempt) :: attempts,
      attempt.page = other ∧ attempt.copy = copy) ↔
        other ∈ page :: pages ∧ store.cache[other]? = some copy ∧ copy.isClean = false := by
  simp only [List.mem_cons, exists_eq_or_imp, every]
  constructor
  · rintro (⟨rfl, rfl⟩ | ⟨member, found, changed⟩)
    · exact ⟨.inl rfl, present, dirty⟩
    · exact ⟨.inr member, (others other member).symm.trans found, changed⟩
  · rintro ⟨rfl | member, found, changed⟩
    · exact .inl ⟨rfl, Option.some.inj (present.symm.trans found)⟩
    · exact .inr ⟨member, (others other member).trans found, changed⟩

end Every

/-! ### A commit as a series of attempts -/

structure Settling (store : Store) (transaction : TransactionId) (pages : List PageId)
    (attempts : List Attempt) (tried : Store) : Prop where
  made : Attempts store attempts tried
  error : (store.settlePages true transaction pages).1 = attempts.findSome? Attempt.error
  same : (store.settlePages true transaction pages).2 =
    { tried with locks := (store.settlePages true transaction pages).2.locks }
  listed : (attempts.map Attempt.page).Sublist pages
  every : ∀ (page : PageId) (copy : PageCopy),
    (∃ attempt ∈ attempts, attempt.page = page ∧ attempt.copy = copy) ↔
      page ∈ pages ∧ store.cache[page]? = some copy ∧ copy.isClean = false

theorem complete_answer (store : Store) (commits : Bool) (transaction : TransactionId) :
    (store.complete commits transaction).1 =
      match (store.settlePages commits transaction (store.locks.table.pagesOf transaction)).1 with
      | some error => .error error
      | none => .ok () := by
  unfold complete
  rcases store.settlePages commits transaction (store.locks.table.pagesOf transaction) with
    ⟨_ | error, after⟩ <;> rfl

theorem settlePages_cons_error (store : Store) (transaction : TransactionId) (page : PageId)
    (pages : List PageId) :
    (store.settlePages true transaction (page :: pages)).1 =
      (store.settlePage true page).1.or
        (((store.settlePage true page).2.releasePage transaction page).settlePages true
          transaction pages).1 := rfl

section Settling

variable {pages : List PageId} {attempts : List Attempt} {tried next : Store}
  {error : Option StorageError}

theorem Settling.pass (settled : store.Settled page)
    (later : Settling (store.releasePage transaction page) transaction pages attempts tried) :
    Settling store transaction (page :: pages) attempts { tried with locks := store.locks } := by
  have idle := settled.settlePage_eq true
  refine ⟨later.made.withLocks store.locks, ?_, ?_, later.listed.cons page,
    every_pass settled later.every⟩
  · rw [settlePages_cons_error, idle]
    exact later.error
  · rw [settlePages_cons, idle]
    exact later.same

theorem Settling.attempt (absent : page ∉ pages) (present : store.cache[page]? = some cached)
    (dirty : cached.isClean = false) (settled : store.settlePage true page = (error, next))
    (first : ∀ {attempts : List Attempt} {tried : Store}, Attempts next attempts tried →
      Attempts store (⟨page, cached, error⟩ :: attempts) tried)
    (later : Settling (next.releasePage transaction page) transaction pages attempts tried) :
    Settling store transaction (page :: pages) (⟨page, cached, error⟩ :: attempts)
      { tried with locks := next.locks } := by
  have others (other : PageId) (member : other ∈ pages) :
      next.cache[other]? = store.cache[other]? := by
    have settles := store.settles_settlePage true page
    rw [settled] at settles
    exact settles.lookup_other fun same => absent (same ▸ member)
  refine ⟨first (later.made.withLocks next.locks), ?_, ?_, later.listed.cons_cons page,
    every_attempt present dirty others later.every⟩
  · rw [settlePages_cons_error, settled]
    change error.or _ = _
    rw [later.error, List.findSome?_cons]
    cases error <;> rfl
  · rw [settlePages_cons, settled]
    exact later.same

end Settling

theorem settling_settlePages (store : Store) (transaction : TransactionId) {pages : List PageId}
    (distinct : pages.Nodup) :
    ∃ attempts tried, Settling store transaction pages attempts tried := by
  induction pages generalizing store with
  | nil => exact ⟨[], store, .done store, rfl, rfl, .slnil, by simp⟩
  | cons page pages ih =>
      obtain ⟨absent, distinct⟩ := List.nodup_cons.mp distinct
      cases present : store.cache[page]? with
      | none =>
          obtain ⟨attempts, tried, later⟩ := ih (store.releasePage transaction page) distinct
          exact ⟨_, _, later.pass (settled_of_absent present)⟩
      | some cached =>
          cases clean : cached.isClean with
          | true =>
              obtain ⟨attempts, tried, later⟩ := ih (store.releasePage transaction page) distinct
              exact ⟨_, _, later.pass (settled_of_clean present clean)⟩
          | false =>
              have settled : store.settlePage true page = store.commitPage page cached := by
                simp only [settlePage, present, clean, Bool.false_eq_true, if_false, if_true]
              cases flushed : store.flush page cached with
              | error error =>
                  simp only [commitPage, flushed] at settled
                  obtain ⟨attempts, tried, later⟩ :=
                    ih ((store.discard page).releasePage transaction page) distinct
                  exact ⟨_, _, later.attempt absent present clean settled
                    (Attempts.refused present clean flushed)⟩
              | ok next =>
                  simp only [commitPage, flushed] at settled
                  obtain ⟨attempts, tried, later⟩ :=
                    ih (next.releasePage transaction page) distinct
                  exact ⟨_, _, later.attempt absent present clean settled
                    (Attempts.written present clean flushed)⟩

/-- The attempts are the dirty pages locked by the transaction, in ascending order. Written ones are
clean and equal their bytes and before-image, failed ones are dropped. The answer is the first
error, and the transaction holds no lock. -/
structure Commits (before : Store) (transaction : TransactionId) (attempts : List Attempt)
    (answer : Except StorageError Unit) (after : Store) : Prop where
  ascending : (attempts.map Attempt.page).Pairwise fun left right => compare left right = .lt
  every : ∀ (page : PageId) (copy : PageCopy),
    (∃ attempt ∈ attempts, attempt.page = page ∧ attempt.copy = copy) ↔
      before.holdsLock transaction page = true ∧ before.cache[page]? = some copy ∧
        copy.isClean = false
  tried : ∃ tried, Attempts before attempts tried ∧ after = { tried with locks := after.locks }
  answered : answer = Attempt.answer attempts
  refused : ∀ attempt ∈ attempts, attempt.error ≠ none → after.cache[attempt.page]? = none
  written : ∀ attempt ∈ attempts, attempt.error = none → ∃ cached table,
    after.cache[attempt.page]? = some cached ∧ cached.isClean = true ∧
      cached.page.encode = attempt.copy.page.encode ∧
      after.tables[attempt.page.table]? = some table ∧
      table.pages.bytesAt after.directory attempt.page.number.toNat = cached.page.encode ∧
      cached.page.beforeImage = cached.page.encode
  others : ∀ page, (∀ attempt ∈ attempts, attempt.page ≠ page) →
    after.cache[page]? = before.cache[page]?
  bytes : ∀ (file : FileId) (offset : Nat) (byte : UInt8),
    before.directory.byteAt? file offset = some byte →
    (∀ attempt ∈ attempts, attempt.error = none → ¬ before.Spans attempt.copy file offset) →
    after.directory.byteAt? file offset = some byte
  unlocked : ∀ page, after.locks.modeOf transaction page = none

theorem Labelled.commits (labelled : store.Labelled)
    (consistent : store.locks.table.Consistent) (transaction : TransactionId) :
    ∃ attempts, Commits store transaction attempts (store.commit transaction).1
      (store.commit transaction).2 := by
  have distinct := nodup_pagesOf store.locks.table transaction
  obtain ⟨attempts, tried, settling⟩ := store.settling_settlePages transaction distinct
  have pages : (attempts.map Attempt.page).Nodup := settling.listed.nodup distinct
  have after : (store.commit transaction).2 =
      { tried with locks := (store.commit transaction).2.locks } := by
    rw [commit, complete_eq, settling.same]
  have cache : (store.commit transaction).2.cache = tried.cache := by rw [after]
  have directory : (store.commit transaction).2.directory = tried.directory := by rw [after]
  have tables : (store.commit transaction).2.tables = tried.tables := by rw [after]
  have made := settling.made
  refine ⟨attempts, ?_, ?_, ⟨tried, made, after⟩, ?_, ?_, ?_, ?_, ?_, ?_⟩
  · exact Std.ExtTreeSet.ordered_toList.sublist settling.listed
  · intro page copy
    rw [settling.every, LockTable.mem_pagesOf_iff consistent, holdsLock, LockTable.holds_eq]
  · rw [commit, complete_answer, settling.error]
    rfl
  · intro attempt member failed
    rw [cache, made.lookup_attempted pages attempt member]
    cases error : attempt.error with
    | none => exact absurd error failed
    | some error => rfl
  · intro attempt member none
    have cached := made.lookup_attempted pages attempt member
    obtain ⟨table, known, bytes⟩ := made.bytesAt_attempted labelled pages attempt member none
    rw [none] at cached
    rw [cache, directory, tables, made.tables_eq]
    exact ⟨attempt.copy.flushed, table, cached, rfl, rfl, known, bytes, rfl⟩
  · intro page apart
    rw [cache]
    exact made.lookup_other apart
  · intro file offset byte present outside
    rw [directory]
    exact made.byteAt? present outside
  · intro page
    have released := LockService.consistent_foldl_release consistent transaction
      (store.locks.table.pagesOf transaction)
    rw [← locks_settlePages store true] at released
    rw [commit, complete_eq, LockService.modeOf, LockService.table_releaseAll,
      LockTable.modeOf_releaseAll released, if_pos rfl]

end Store

namespace System

theorem Course.labelled {start system : System}
    (course : Course (fun system action => action.Addressed system) start system)
    (labelled : start.store.Labelled) : system.store.Labelled := by
  induction course with
  | start => exact labelled
  | step action earlier addressed ih => exact ih.act action addressed

/-- `commit` attempts every dirty page of the transaction, whatever errors come up, also when tables
were registered again with other page sizes or schemas. -/
theorem commit_tries_every_page {directory : Directory} {capacity : Nat} {range : WaitRange}
    {preference : Preference} {system : System}
    (course : Course (fun system action => action.Addressed system)
      (untouched directory capacity range preference) system)
    (transaction : TransactionId) :
    ∃ attempts, Store.Commits system.store transaction attempts
      (system.store.commit transaction).1 (system.store.commit transaction).2 := by
  have labelled := course.labelled (.untouched directory capacity range preference)
  have bounded := course.bounded (Store.Bounded.untouched directory capacity range preference)
  exact labelled.commits bounded.consistent transaction

def furtherNumbers : Table := ⟨⟨8⟩, "further", numbers.schema, ⟨1, 8⟩⟩

/-- One table is registered again with pages of twice the size, so its page cannot be written. The
page of the other table is written after it. -/
theorem commit_tries_every_page_small :
    ∃ (system : System) (attempts : List Attempt),
      Course (fun system action => action.Addressed system)
        (untouched small.store.directory 2 .standard fun _ _ => 0) system ∧
      system.store.holdsLock ⟨1⟩ (numbers.page 0) = true ∧
      system.store.holdsLock ⟨1⟩ (furtherNumbers.page 0) = true ∧
      Store.Commits system.store ⟨1⟩ attempts (system.store.commit ⟨1⟩).1
        (system.store.commit ⟨1⟩).2 ∧
      (system.store.commit ⟨1⟩).1 = .error (.corrupt (.bufferSize 16 8)) ∧
      (system.store.commit ⟨1⟩).2.cache[numbers.page 0]? = none ∧
      (system.store.commit ⟨1⟩).2.cache[furtherNumbers.page 0]?.map PageCopy.isClean =
        some true := by
  have course := Course.step (.register numbers)
    (.start : Course (fun system action => action.Addressed system)
      (untouched small.store.directory 2 .standard fun _ _ => 0) _)
    fun id other _ known => absurd known (untouched_unknown _ _ _ _ id other)
  have course := course.step (.register furtherNumbers) fun id other _ known => by
    cases Store.known_single rfl known
    decide
  have course := course.step
    (.operation (.insert ⟨1⟩ ⟨7⟩ ⟨numbers.schema, [.int 5], none, rfl⟩)) trivial
  have course := course.step
    (.operation (.insert ⟨1⟩ ⟨8⟩ ⟨numbers.schema, [.int 6], none, rfl⟩)) trivial
  have course := course.step (.register { numbers with pages := ⟨0, 16⟩ })
    fun id other different known => by
      change (((∅ : Std.ExtTreeMap TableId Table).insert numbers.id numbers).insert
        furtherNumbers.id furtherNumbers)[id]? = some other at known
      rw [lookup_insert, lookup_insert, if_neg (Ne.symm different : numbers.id ≠ id)] at known
      split at known
      · cases known
        decide
      · cases known
  obtain ⟨attempts, commits⟩ := commit_tries_every_page course ⟨1⟩
  exact ⟨_, attempts, course, rfl, rfl, commits, rfl, rfl, rfl⟩

end System

end RecordStore
