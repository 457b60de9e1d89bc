import RecordStore.Proofs.Store.Standing

set_option autoImplicit false

/-! An abort after a flush. Changes that were flushed stay; `abort` takes back the later changes of
its transaction, last first, and nothing else, also on pages with changes of both kinds. -/

namespace RecordStore

def Change.back (record : RecordId) : Option (List Value) → Change
  | some values => .insert record values
  | none => .delete record

theorem Change.record_back (record : RecordId) (values : Option (List Value)) :
    (Change.back record values).record = record := by
  cases values <;> rfl

theorem Change.apply_back (records : Records) (record other : RecordId)
    (values : Option (List Value)) :
    (Change.back record values).apply records other =
      if other = record then values else records other := by
  cases values <;> rfl

theorem Records.after_filter {records : Records} {record : RecordId} (chosen : Change → Bool)
    {changes : List Change}
    (elsewhere : ∀ change ∈ changes, chosen change = false → change.record ≠ record) :
    records.after (changes.filter chosen) record = records.after changes record := by
  induction changes generalizing records with
  | nil => rfl
  | cons change changes ih =>
      have later := @ih (change.apply records) fun other member =>
        elsewhere other (List.mem_cons_of_mem change member)
      change _ = (change.apply records).after changes record
      rw [← later]
      cases kept : chosen change with
      | true =>
          rw [List.filter_cons_of_pos kept]
          rfl
      | false =>
          rw [List.filter_cons_of_neg (by rw [kept]; exact Bool.false_ne_true)]
          refine Records.after_congr ?_ _
          exact (if_neg fun same => elsewhere change List.mem_cons_self kept same.symm).symm

/-- The changes that take back all that the transaction has done, the last first. `seen` are the
records before the event; changes on a discarded page are gone already. -/
def undoing (transaction : TransactionId) (seen : Records) (undo : List Change) :
    Event → List Change
  | ⟨.insert other _ _, .placed (.ok record)⟩ =>
      if other = transaction then .back record (seen record) :: undo else undo
  | ⟨.delete other (some record), .deleted (.ok ())⟩ =>
      if other = transaction then .back record (seen record) :: undo else undo
  | ⟨.discard page, _⟩ => undo.filter fun change => decide (change.record.page ≠ page)
  | _ => undo

/-- Neither ends the transaction nor flushes its pages. -/
def Action.LeavesOpen (transaction : TransactionId) : Action → Prop
  | .operation (.commit other) | .operation (.abort other) | .operation (.flush other) =>
      other ≠ transaction
  | .operation .flushAll => False
  | _ => True

/-- `Untampered` and `Proper`, and no file comes to `UInt32.size` pages. -/
def Action.Orderly (system : System) (action : Action) : Prop :=
  action.Untampered system ∧ action.Proper system ∧
    Store.StaysCountable system.store (system.act action).store

def Extent.Includes (extent : Extent) (transaction : TransactionId) : Prop :=
  match extent with
  | .all => True
  | .locked other => other = transaction

/-- `delete` frees the slot of a record that was on the page. -/
theorem Page.Sound.contents_delete {page changed : Page} {schema : Schema} {size : Nat}
    (sound : page.Sound schema size) {record : RecordId}
    (deleted : page.delete record = .ok changed) :
    record.slot < page.contents.length ∧
      changed.contents = page.contents.set record.slot none := by
  cases checked : Slots.checkTaken page.contents page.id record with
  | error error =>
      rw [sound.delete_refused checked] at deleted
      cases deleted
  | ok done =>
      obtain ⟨content, again, -, contents, -⟩ := sound.delete_eq checked
      rw [deleted] at again
      cases again
      exact ⟨(Slots.checkTaken_ok checked).2.1, contents⟩

/-- A page that is encoded as zeros has no record. -/
theorem Page.Sound.contents_of_zeros {page : Page} {schema : Schema} {size : Nat}
    (sound : page.Sound schema size) (zeros : page.encode = List.replicate size 0) :
    page.contents = List.replicate (Layout.slotCount size schema.width) none := by
  obtain ⟨found, decoded, contents, -⟩ := sound.decode_encode page.id
  obtain ⟨blank, empty, free⟩ := Page.decode_zeros page.id schema size
  rw [zeros, empty] at decoded
  cases decoded
  rw [← contents, free]

namespace System

def undoing (system : System) (transaction : TransactionId) (undo : List Change) :
    Action → List Change
  | .operation operation =>
      RecordStore.undoing transaction system.store.seen undo
        ⟨operation, (system.perform operation).1⟩
  | _ => undo

/-- The systems reached while the transaction is left open, each with the changes that take back
what the transaction has done since. -/
inductive Since (allowed : System → Action → Prop) (transaction : TransactionId)
    (start : System) : List Change → System → Prop where
  | start : Since allowed transaction start [] start
  | step {undo : List Change} {system : System} (action : Action) :
      Since allowed transaction start undo system → allowed system action →
      action.LeavesOpen transaction →
      Since allowed transaction start (system.undoing transaction undo action) (system.act action)

theorem Since.course {allowed : System → Action → Prop} {transaction : TransactionId}
    {start system : System} {undo : List Change}
    (since : Since allowed transaction start undo system) : Course allowed start system := by
  induction since with
  | start => exact .start
  | step action earlier member leaves ih => exact .step action ih member

end System

namespace Store

variable {store after : Store} {transaction other : TransactionId} {page : PageId}
  {cached : PageCopy} {slot : Nat} {undo : List Change}

/-! ### Changes to undo -/

structure Undone (store : Store) (transaction : TransactionId) (undo : List Change) : Prop where
  own : ∀ change ∈ undo, store.Dirtied transaction change.record.page
  back : ∀ page, store.Dirtied transaction page → ∀ slot,
    store.seen.after undo ⟨page, slot⟩ = store.stored ⟨page, slot⟩

/-- A clean or foreign copy of a page held exclusively is clean. -/
theorem Custody.settled_of_alone (custody : store.Custody)
    (alone : store.locks.modeOf transaction page = some .exclusive)
    (undirtied : ¬ store.Dirtied transaction page) : store.Settled page := by
  intro cached present
  cases dirtied : cached.page.dirtier with
  | none => exact cached.isClean_iff.mpr dirtied
  | some owner =>
      have held := custody.alone page cached owner present dirtied
      obtain rfl : transaction = owner := by
        refine LockTable.alone_of_exclusive held ?_
        change (store.locks.modeOf transaction page).isSome = true
        rw [alone]
        rfl
      exact absurd ⟨cached, present, dirtied⟩ undirtied

/-- Putting a record back restores what is seen. -/
theorem back_seen_change {record : RecordId} {content : Page}
    (present : store.cache[record.page]? = some cached)
    (elsewhere : ∀ slot, slot ≠ record.slot →
      content.contents[slot]?.join = cached.page.contents[slot]?.join) :
    (Change.back record (store.seen record)).apply
      (store.install record.page (markedCopy cached content transaction)).seen = store.seen := by
  funext ⟨page, slot⟩
  rw [Change.apply_back]
  split
  · next same => rw [same]
  · next apart =>
      by_cases here : record.page = page
      · subst here
        have different : slot ≠ record.slot := fun same => apart (same ▸ rfl)
        rw [seen_cached ((lookup_install _ _ _ _).trans (if_pos rfl)), seen_cached present,
          ← Page.contents_join, ← Page.contents_join]
        exact elsewhere slot different
      · simp only [seen, current?, lookup_install, if_neg here]
        rfl

namespace Undone

/-- Operations of other transactions leave what is to be undone as it is. -/
theorem spared (undone : store.Undone transaction undo) (backed : store.Backed)
    (custody : store.Custody) (leaves : LeavesAlone transaction store after) :
    after.Undone transaction undo := by
  constructor
  · intro change member
    obtain ⟨cached, present, dirtied⟩ := undone.own change member
    exact ⟨cached, (leaves.copies _ cached dirtied).mpr present, dirtied⟩
  · rintro page ⟨cached, present, dirtied⟩ slot
    have before := (leaves.copies page cached dirtied).mp present
    obtain ⟨table, known, faithful⟩ := backed.faithful page cached before
    have stands := leaves.stands page (custody.alone page cached transaction before dirtied)
    rw [stands.stored_eq known faithful.counted, ← undone.back page ⟨cached, before, dirtied⟩ slot]
    refine Records.after_congr ?_ undo
    rw [seen_cached present, seen_cached before]

/-- The newest change is taken back first. -/
theorem change (undone : store.Undone transaction undo) (backed : store.Backed)
    (custody : store.Custody) {record : RecordId}
    (writable : store.Writable transaction record.page cached) {content : Page}
    (elsewhere : ∀ slot, slot ≠ record.slot →
      content.contents[slot]?.join = cached.page.contents[slot]?.join) :
    (store.install record.page (markedCopy cached content transaction)).Undone transaction
      (.back record (store.seen record) :: undo) := by
  have present : (store.install record.page (markedCopy cached content transaction)).cache[
      record.page]? = some (markedCopy cached content transaction) := by
    rw [lookup_install, if_pos rfl]
  constructor
  · rintro change (_ | ⟨_, member⟩)
    · rw [Change.record_back]
      exact ⟨_, present, rfl⟩
    · by_cases here : record.page = change.record.page
      · rw [← here]
        exact ⟨_, present, rfl⟩
      · obtain ⟨copy, found, dirtied⟩ := undone.own change member
        exact ⟨copy, (lookup_install _ _ _ _).trans ((if_neg here).trans found), dirtied⟩
  · rintro page ⟨copy, found, dirtied⟩ slot
    change ((Change.back record (store.seen record)).apply _).after undo ⟨page, slot⟩ =
      store.stored ⟨page, slot⟩
    rw [back_seen_change writable.present elsewhere]
    by_cases before : store.Dirtied transaction page
    · exact undone.back page before slot
    · -- the page was clean, so that nothing of it is to be taken back but this change
      have here : record.page = page := by
        by_contra apart
        rw [lookup_install, if_neg apart] at found
        exact before ⟨copy, found, dirtied⟩
      subst here
      have untouched : store.seen.after undo ⟨record.page, slot⟩ =
          store.seen ⟨record.page, slot⟩ := by
        refine Records.after_untouched fun change member same => before ?_
        have own := undone.own change member
        rwa [same] at own
      exact untouched.trans (backed.seen_settled (custody.settled_of_alone writable.alone before))

theorem discard (undone : store.Undone transaction undo) (page : PageId) :
    (store.discard page).Undone transaction
      (undo.filter fun change => decide (change.record.page ≠ page)) := by
  constructor
  · intro change member
    obtain ⟨listed, apart⟩ := List.mem_filter.mp member
    obtain ⟨cached, present, dirtied⟩ := undone.own change listed
    refine ⟨cached, ?_, dirtied⟩
    rw [lookup_discard, if_neg fun same => of_decide_eq_true apart same.symm]
    exact present
  · rintro other ⟨cached, present, dirtied⟩ slot
    have found := present
    rw [lookup_discard] at found
    split at found
    · cases found
    · next apart =>
        rw [Records.after_filter]
        · change _ = store.stored ⟨other, slot⟩
          rw [← undone.back other ⟨cached, found, dirtied⟩ slot]
          exact Records.after_congr (by rw [seen_cached present, seen_cached found]) undo
        · intro change member dropped same
          have here := Classical.not_not.mp (of_decide_eq_false dropped)
          rw [same] at here
          exact apart here.symm

end Undone

structure GoesOn (before after : Store) (transaction : TransactionId) (undo : List Change) :
    Prop where
  guards : Guards transaction before after
  undone : after.Undone transaction undo

theorem LeavesAlone.goesOn (leaves : LeavesAlone transaction store after) (backed : store.Backed)
    (custody : store.Custody) (undone : store.Undone transaction undo) :
    GoesOn store after transaction undo :=
  ⟨leaves.toGuards, undone.spared backed custody leaves⟩

theorem delete_ok {record : Option RecordId}
    (deleted : store.delete transaction record = (.ok (), after)) :
    ∃ place middle cached content, record = some place ∧ Visits transaction store middle ∧
      middle.Writable transaction place.page cached ∧ cached.page.delete place = .ok content ∧
      after = middle.install place.page (markedCopy cached content transaction) := by
  unfold delete at deleted
  split at deleted
  · cases deleted
  · next place =>
      split at deleted
      · cases deleted
      · next table found =>
          unfold remove at deleted
          simp only at deleted
          cases owned : table.checkOwner place.page with
          | error error => simp [owned] at deleted
          | ok done =>
              have visits := store.visits_getPage transaction place.page .readWrite
              rcases fetched : store.getPage transaction place.page .readWrite with
                ⟨failure | cached, middle⟩
              · simp [owned, fetched] at deleted
              · rw [fetched] at visits
                have writable := getPage_writable fetched
                cases freed : cached.page.delete place with
                | error error => simp [owned, fetched, freed] at deleted
                | ok content =>
                    simp only [owned, fetched, freed,
                      installDirty_update writable.present content transaction] at deleted
                    cases deleted
                    exact ⟨place, middle, cached, content, rfl, visits, writable, freed, rfl⟩

section Changes

variable (backed : store.Backed) (custody : store.Custody)
  (undone : store.Undone transaction undo)

include backed custody undone

theorem goesOn_visits (visits : Visits other store after) (stays : StaysCountable store after) :
    GoesOn store after transaction undo :=
  (visits.leavesAlone backed.distinct stays transaction).goesOn backed custody undone

theorem goesOn_change {middle : Store} {record : RecordId} {content : Page}
    (visits : Visits other store middle) (stays : StaysCountable store middle)
    (writable : middle.Writable other record.page cached)
    (elsewhere : ∀ slot, slot ≠ record.slot →
      content.contents[slot]?.join = cached.page.contents[slot]?.join) :
    GoesOn store (middle.install record.page (markedCopy cached content other)) transaction
      (if other = transaction then .back record (store.seen record) :: undo else undo) := by
  have leaves := visits.leavesAlone backed.distinct stays transaction
  have kept := undone.spared backed custody leaves
  have middleCustody := custody.works visits.works
  split
  · next own =>
      subst own
      refine ⟨leaves.toGuards.trans (.of_files ⟨rfl, rfl⟩ rfl), ?_⟩
      rw [← backed.seen_visits visits stays]
      exact kept.change (backed.visits visits stays) middleCustody writable elsewhere
  · next different =>
      have later := leavesAlone_change middleCustody different writable content
      exact ⟨leaves.toGuards.trans later.toGuards,
        kept.spared (backed.visits visits stays) middleCustody later⟩

theorem goesOn_insert (id : TableId) (row : Row)
    (stays : StaysCountable store (store.insert other id row).2.2) :
    GoesOn store (store.insert other id row).2.2 transaction
      (undoing transaction store.seen undo
        ⟨.insert other id row, .placed (store.insert other id row).1⟩) := by
  have inserts := store.inserts_insert other id row
  rcases done : store.insert other id row with ⟨outcome, back, after⟩
  rw [done] at inserts stays
  cases inserts with
  | refused failure visits => exact goesOn_visits backed custody undone visits stays
  | @placed middle page cached record content visits writable inserted =>
      have counted := stays.earlier (.change writable (.inserted inserted))
      obtain ⟨table, -, faithful⟩ :=
        (backed.visits visits counted).faithful page cached writable.present
      obtain ⟨slot, free, place, -, contents, -⟩ := faithful.sound.insert_ok inserted
      obtain rfl : page = record.page := by rw [place, faithful.idIs]
      refine goesOn_change backed custody undone visits counted writable fun other apart => ?_
      rw [place] at apart
      rw [contents, Bare.Keeps.join_set (Slots.free?_spec free).1, if_neg apart]

theorem goesOn_delete (record : Option RecordId)
    (stays : StaysCountable store (store.delete other record).2) :
    GoesOn store (store.delete other record).2 transaction
      (undoing transaction store.seen undo
        ⟨.delete other record, .deleted (store.delete other record).1⟩) := by
  have deletes := store.deletes_delete other record
  rcases done : store.delete other record with ⟨failure | nothing, after⟩
  · rw [done] at deletes stays
    cases deletes with
    | refused failure visits =>
        have goes := goesOn_visits backed custody undone visits stays
        cases record <;> exact goes
  · obtain ⟨place, middle, cached, content, rfl, visits, writable, deleted, rfl⟩ := delete_ok done
    rw [done] at stays
    have counted := stays.earlier (.change writable (.deleted deleted))
    obtain ⟨table, -, faithful⟩ :=
      (backed.visits visits counted).faithful place.page cached writable.present
    obtain ⟨inside, contents⟩ := faithful.sound.contents_delete deleted
    refine goesOn_change backed custody undone visits counted writable fun other apart => ?_
    rw [contents, Bare.Keeps.join_set inside, if_neg apart]

end Changes

/-! ### Open transactions -/

theorem goesOn_perform {system : System} (backed : system.store.Backed)
    (custody : system.store.Custody) (undone : system.store.Undone transaction undo)
    (operation : Operation) (proper : (Action.operation operation).Proper system)
    (stays : StaysCountable system.store (system.perform operation).2.store)
    (leaves : (Action.operation operation).LeavesOpen transaction) :
    GoesOn system.store (system.perform operation).2.store transaction
      (system.undoing transaction undo (.operation operation)) := by
  have still : GoesOn system.store system.store transaction undo :=
    ⟨.of_files ⟨rfl, rfl⟩ rfl, undone⟩
  cases operation with
  | begin => exact ⟨.of_files ⟨rfl, rfl⟩ rfl, undone.own, undone.back⟩
  | get other page access =>
      have visits := system.store.visits_getPage other page access
      exact goesOn_visits backed custody undone visits stays
  | insert other id row => exact goesOn_insert backed custody undone id row stays
  | delete other record => exact goesOn_delete backed custody undone record stays
  | scan name other id =>
      rw [system.store_scan]
      exact still
  | next name =>
      change GoesOn _ _ transaction undo
      simp only [System.perform] at stays ⊢
      cases found : system.scans name with
      | none => exact still
      | some scan =>
          rw [found] at stays
          exact goesOn_visits backed custody undone (visits_next scan system.store) stays
  | rewind name =>
      rw [system.store_rewind]
      exact still
  | evict =>
      have visits : Visits TransactionId.first system.store _ := .evict system.store
      exact goesOn_visits backed custody undone visits stays
  | commit other =>
      exact (leavesAlone_complete backed custody leaves true).goesOn backed custody undone
  | abort other =>
      exact (leavesAlone_complete backed custody leaves false).goesOn backed custody undone
  | release other page => exact proper.elim
  | discard page => exact ⟨.of_files ⟨rfl, rfl⟩ rfl, undone.discard page⟩
  | flush other => exact (leavesAlone_flush backed custody leaves).goesOn backed custody undone
  | flushAll => exact leaves.elim

theorem goesOn_act {system : System} (backed : system.store.Backed)
    (custody : system.store.Custody) (undone : system.store.Undone transaction undo)
    (action : Action) (untampered : action.Untampered system) (proper : action.Proper system)
    (stays : StaysCountable system.store (system.act action).store)
    (leaves : action.LeavesOpen transaction) :
    GoesOn system.store (system.act action).store transaction
      (system.undoing transaction undo action) := by
  cases action with
  | operation operation =>
      exact goesOn_perform backed custody undone operation proper stays leaves
  | lock call =>
      obtain ⟨other, stronger⟩ := system.store.locks.perform_strengthens call proper
      exact goesOn_visits backed custody undone (.lock stronger) stays
  | fetch page =>
      have visits := system.store.visits_fetch TransactionId.first page
      exact goesOn_visits backed custody undone visits stays
  | register table =>
      obtain ⟨unknown, -⟩ := untampered
      have stands (page : PageId) : Stands system.store (system.store.register table) page := by
        refine .of_content fun other known => ⟨?_, rfl⟩
        rw [Store.register, lookup_insert, if_neg]
        · exact known
        · intro same
          rw [← same, unknown] at known
          cases known
      have leaves : LeavesAlone transaction system.store (system.store.register table) :=
        ⟨⟨fun _ => id, fun page _ => stands page⟩, fun _ _ _ => Iff.rfl⟩
      exact leaves.goesOn backed custody undone
  | revise page changed => exact untampered.elim
  | reinstall other page changed => exact untampered.elim
  | disturb directory =>
      have stands (page : PageId) :
          Stands system.store { system.store with directory := directory } page :=
        .of_content fun table known => ⟨known, untampered page.table table known⟩
      have leaves : LeavesAlone transaction system.store
          { system.store with directory := directory } :=
        ⟨⟨fun _ => id, fun page _ => stands page⟩, fun _ _ _ => Iff.rfl⟩
      exact leaves.goesOn backed custody undone

/-! ### After pages have been written -/

/-- `abort` writes nothing, drops the pages dirtied since, and leaves the records as `undo` makes
them. Pages that were dirty at the flush keep what was written of them; those dirtied since can be
read again. -/
structure Undoes (before later : Store) (transaction : TransactionId) (undo : List Change)
    (after : Store) : Prop where
  directory : after.directory = later.directory
  cache : after.cache = later.cache.filter fun _ cached =>
    decide (cached.page.dirtier ≠ some transaction)
  seen : after.seen = later.seen.after undo
  kept : ∀ (page : PageId) (cached : PageCopy), before.cache[page]? = some cached →
    cached.page.dirtier = some transaction → ∃ table, after.tables[page.table]? = some table ∧
      table.pages.bytesAt after.directory page.number.toNat = cached.page.encode ∧
      ∀ slot, after.seen ⟨page, slot⟩ = before.seen ⟨page, slot⟩
  shown : ∀ (other : TransactionId) (page : PageId) (access : Access) (copy : PageCopy)
    (final : Store), after.getPage other page access = (.ok copy, final) →
    ∀ slot, (copy.page.row? slot).map Row.stored = after.seen ⟨page, slot⟩
  restored : ∀ (page : PageId) (cached : PageCopy), later.cache[page]? = some cached →
    cached.page.dirtier = some transaction → ∀ (other : TransactionId) (access : Access),
      ∃ copy final, after.getPage other page access = (.ok copy, final) ∧
        copy.isClean = true ∧ cached.page.beforePage = .ok copy.page

theorem covers_of_alone {extent : Extent} (includes : extent.Includes transaction)
    (alone : store.locks.modeOf transaction page = some .exclusive) :
    extent.Covers store page := by
  cases extent with
  | all => trivial
  | locked other =>
      obtain rfl : other = transaction := includes
      rw [Extent.covers_locked_iff, alone]
      rfl

theorem Backed.abort (backed : store.Backed) (transaction : TransactionId) :
    (store.abort transaction).2.Backed := by
  have files := store.files_abort transaction
  refine backed.deeds (store.deeds_complete false transaction) fun id table known small => ?_
  rwa [files.directoryIs]

/-- A page held exclusively by an aborted transaction is not dirty. -/
theorem Custody.settled_abort (custody : store.Custody)
    (alone : store.locks.modeOf transaction page = some .exclusive) :
    (store.abort transaction).2.Settled page := by
  by_cases own : store.Dirtied transaction page
  · obtain ⟨cached, present, dirtied⟩ := own
    exact settled_of_absent (custody.lookup_abort_dirtied present dirtied)
  · intro cached found
    rw [show (store.abort transaction).2.cache[page]? = _ from
      custody.lookup_complete_undirty false transaction own] at found
    exact custody.settled_of_alone alone own cached found

/-- `abort` leaves the records as `undo` makes them. -/
theorem Undone.seen_abort (undone : store.Undone transaction undo) (backed : store.Backed)
    (custody : store.Custody) :
    (store.abort transaction).2.seen = store.seen.after undo := by
  have files := store.files_abort transaction
  funext ⟨page, slot⟩
  by_cases own : store.Dirtied transaction page
  · obtain ⟨cached, present, dirtied⟩ := own
    have alone := custody.alone page cached transaction present dirtied
    rw [(backed.abort transaction).seen_settled (custody.settled_abort alone),
      files.stored_eq, undone.back page ⟨cached, present, dirtied⟩ slot]
  · have same : (store.abort transaction).2.seen ⟨page, slot⟩ = store.seen ⟨page, slot⟩ := by
      have lookup : (store.abort transaction).2.cache[page]? = store.cache[page]? :=
        custody.lookup_complete_undirty false transaction own
      simp only [seen, current?, lookup, files.tablesAre, files.directoryIs]
    refine same.trans (Records.after_untouched fun change member here => own ?_).symm
    have changed := undone.own change member
    rwa [here] at changed

section Flushes

variable {extent : Extent} {flushed later : Store} {capacity : Nat}
  (flushes : Flushes store extent flushed) (includes : extent.Includes transaction)
  (custody : store.Custody) (backed : flushed.Backed)

include flushes includes

/-- Right after a flush nothing is to be undone. -/
theorem Flushes.undone (flushedCustody : flushed.Custody) : flushed.Undone transaction [] := by
  refine ⟨nofun, ?_⟩
  rintro page ⟨copy, present, dirtied⟩
  have alone := flushedCustody.alone page copy transaction present dirtied
  rw [flushes.locks] at alone
  obtain ⟨cached, before⟩ := present_of_isCached_eq (flushes.cached page) present
  obtain ⟨again, here, clean, -⟩ :=
    flushes.kept page cached before (covers_of_alone includes alone)
  rw [present] at here
  cases here
  rw [PageCopy.isClean_eq_false dirtied] at clean
  cases clean

include custody backed

/-- What was flushed stays in the file while the transaction is left open. -/
theorem Flushes.kept_abort (goes : GoesOn flushed later transaction undo)
    (laterBacked : later.Backed) (laterCustody : later.Custody)
    (present : store.cache[page]? = some cached)
    (dirtied : cached.page.dirtier = some transaction) :
    ∃ table, (later.abort transaction).2.tables[page.table]? = some table ∧
      table.pages.bytesAt (later.abort transaction).2.directory page.number.toNat =
        cached.page.encode ∧
      ∀ slot, (later.abort transaction).2.seen ⟨page, slot⟩ = store.seen ⟨page, slot⟩ := by
  have before := custody.alone page cached transaction present dirtied
  have covered := covers_of_alone includes before
  have alone : flushed.locks.modeOf transaction page = some .exclusive := by rwa [flushes.locks]
  have files := later.files_abort transaction
  obtain ⟨copy, table, found, known, content, written, -⟩ :=
    flushes.written page cached present (PageCopy.isClean_eq_false dirtied) covered
  rw [← flushes.tables] at known
  obtain ⟨other, otherKnown, faithful⟩ := backed.faithful page copy found
  obtain rfl : table = other := Option.some.inj (known.symm.trans otherKnown)
  have stands : Stands flushed (later.abort transaction).2 page :=
    (goes.guards.stands page alone).trans (.of_files files)
  obtain ⟨still, -, bytes⟩ := stands table known faithful.counted
  refine ⟨table, still, bytes.trans (written.trans content), fun slot => ?_⟩
  obtain ⟨again, here, clean, slots, -⟩ := flushes.kept page cached present covered
  have settled := laterCustody.settled_abort (goes.guards.held page alone)
  calc (later.abort transaction).2.seen ⟨page, slot⟩
      = (later.abort transaction).2.stored ⟨page, slot⟩ :=
        (laterBacked.abort transaction).seen_settled settled
    _ = flushed.stored ⟨page, slot⟩ := stands.stored_eq known faithful.counted
    _ = flushed.seen ⟨page, slot⟩ := (backed.seen_settled (settled_of_clean here clean)).symm
    _ = (again.page.row? slot).map Row.stored := seen_cached here
    _ = (cached.page.row? slot).map Row.stored := by rw [Page.row?, Page.row?, slots]
    _ = store.seen ⟨page, slot⟩ := (seen_cached present).symm

theorem Flushes.undoes (goes : GoesOn flushed later transaction undo)
    (laterBacked : later.Backed) (laterCustody : later.Custody)
    (bounded : later.Bounded capacity) :
    Undoes store later transaction undo (later.abort transaction).2 where
  directory := later.directory_abort transaction
  cache := laterCustody.cache_abort transaction
  seen := goes.undone.seen_abort laterBacked laterCustody
  kept _ _ present dirtied :=
    flushes.kept_abort includes custody backed goes laterBacked laterCustody present dirtied
  shown _ _ _ _ _ got _ := (laterBacked.abort transaction).seen_getPage got
  restored _ _ present dirtied other access :=
    laterBacked.getPage_restored present dirtied laterCustody bounded other access

end Flushes

end Store

namespace System

variable {transaction : TransactionId} {start system : System} {undo : List Change}

theorem Course.sound_of_orderly (course : Course Action.Orderly start system)
    (backed : start.store.Backed) (custody : start.store.Custody) :
    system.store.Backed ∧ system.store.Custody :=
  ⟨(course.mono fun _ _ orderly => ⟨orderly.1, orderly.2.2⟩).backed backed,
    (course.mono fun _ _ orderly => orderly.2.1).custody custody⟩

theorem Since.goesOn (since : Since Action.Orderly transaction start undo system)
    (backed : start.store.Backed) (custody : start.store.Custody)
    (undone : start.store.Undone transaction []) :
    Store.GoesOn start.store system.store transaction undo := by
  induction since with
  | start => exact ⟨.of_files ⟨rfl, rfl⟩ rfl, undone⟩
  | step action earlier orderly leaves ih =>
      obtain ⟨untampered, proper, stays⟩ := orderly
      obtain ⟨backed, custody⟩ := earlier.course.sound_of_orderly backed custody
      have next :=
        Store.goesOn_act backed custody ih.undone action untampered proper stays leaves
      exact ⟨ih.guards.trans next.guards, next.undone⟩

/-- After any `Orderly` actions, `flushAll` and `flushPages` succeed, leave the covered pages clean
and equal to their bytes and before-images, and change nothing else. After further `Orderly` actions
an abort of the transaction takes back exactly what it has done since, also on these pages. -/
theorem flush_parts_changes {directory : Directory} {capacity : Nat} {range : WaitRange}
    {preference : Preference} {system : System}
    (course : Course Action.Orderly (untouched directory capacity range preference) system)
    (extent : Extent) :
    ∃ flushed, extent.flush system.store = (.ok (), flushed) ∧
      Store.Flushes system.store extent flushed ∧
      ∀ (transaction : TransactionId) (undo : List Change) (later : System),
        extent.Includes transaction →
        Since Action.Orderly transaction (system.withStore flushed) undo later →
        ∃ after, later.store.abort transaction = (.ok (), after) ∧
          Store.Undoes system.store later.store transaction undo after := by
  obtain ⟨backed, custody⟩ := course.sound_of_orderly
    (.untouched directory capacity range preference)
    (.untouched directory capacity range preference)
  have bounded := course.bounded (Store.Bounded.untouched directory capacity range preference)
  obtain ⟨flushed, done, flushedBacked, flushes⟩ := backed.flushes custody.consistent extent
  have flushedIs : (system.store.flushEach (extent.pages system.store)).2 = flushed := by
    rw [← extent.flush_eq, done]
  have flushedCustody : flushed.Custody := flushedIs ▸ custody.flushEach _
  have flushedBounded : flushed.Bounded capacity := flushedIs ▸ bounded.flushEach _
  refine ⟨flushed, done, flushes, fun transaction undo later includes since => ?_⟩
  obtain ⟨laterBacked, laterCustody⟩ :=
    since.course.sound_of_orderly flushedBacked flushedCustody
  have goes := since.goesOn flushedBacked flushedCustody (flushes.undone includes flushedCustody)
  exact ⟨_, later.store.abort_ok transaction, flushes.undoes includes custody flushedBacked goes
    laterBacked laterCustody (since.course.bounded flushedBounded)⟩

/-- A number is inserted and flushed, and then replaced on the same page. The abort takes back the
replacement only. -/
theorem flush_parts_changes_small :
    ∃ (system later : System) (flushed after : Store) (undo : List Change),
      Course Action.Orderly (untouched small.store.directory 1 .standard fun _ _ => 0) system ∧
      (Extent.locked ⟨1⟩).flush system.store = (.ok (), flushed) ∧
      Since Action.Orderly ⟨1⟩ (system.withStore flushed) undo later ∧
      later.store.seen ⟨numbers.page 0, 0⟩ = some [.int 6] ∧
      later.store.abort ⟨1⟩ = (.ok (), after) ∧
      after.seen ⟨numbers.page 0, 0⟩ = some [.int 5] := by
  have course := Course.step (.register numbers)
    (.start : Course Action.Orderly
      (untouched small.store.directory 1 .standard fun _ _ => 0) _)
    ⟨⟨rfl, fun id other known => absurd known (untouched_unknown _ _ _ _ id other)⟩, trivial,
      fun id other known => absurd known (untouched_unknown _ _ _ _ id other)⟩
  have course := course.step
    (.operation (.insert ⟨1⟩ ⟨7⟩ ⟨numbers.schema, [.int 5], none, rfl⟩))
    ⟨trivial, trivial, .of_countable rfl (Store.countable_single rfl (by decide +kernel))⟩
  obtain ⟨flushed, done, -, undoes⟩ := flush_parts_changes course (.locked ⟨1⟩)
  obtain rfl := congrArg Prod.snd done
  have opened {system : System} (_ : Course Action.Orderly
      (untouched small.store.directory 1 .standard fun _ _ => 0) system) :
      Since Action.Orderly ⟨1⟩
        (system.withStore ((Extent.locked ⟨1⟩).flush system.store).2) [] _ := .start
  have since := (opened course).step (.operation (.delete ⟨1⟩ (some ⟨numbers.page 0, 0⟩)))
    ⟨trivial, trivial, .of_countable rfl (Store.countable_single rfl (by decide +kernel))⟩ trivial
  have since := since.step
    (.operation (.insert ⟨1⟩ ⟨7⟩ ⟨numbers.schema, [.int 6], none, rfl⟩))
    ⟨trivial, trivial, .of_countable rfl (Store.countable_single rfl (by decide +kernel))⟩ trivial
  obtain ⟨after, aborted, undone⟩ := undoes ⟨1⟩ _ _ rfl since
  refine ⟨_, _, _, after, _, course, done, since, by decide +kernel, aborted, ?_⟩
  rw [undone.seen]
  decide +kernel

/-- A refused insert adds nothing to take back. -/
theorem Since.refused {allowed : System → Action → Prop} {writer : TransactionId} {id : TableId}
    {row placed : Row} {failure : Failure} {after : Store}
    (since : Since allowed transaction start undo system)
    (member : allowed system (.operation (.insert writer id row)))
    (refused : system.store.insert writer id row = (.error failure, placed, after)) :
    Since allowed transaction start undo (system.withStore after) := by
  have answered : (system.perform (.insert writer id row)).1 = .placed (.error failure) := by
    change Answer.placed (system.store.insert writer id row).1 = _
    rw [refused]
  have same : system.undoing transaction undo (.operation (.insert writer id row)) = undo := by
    rw [System.undoing, answered]
    rfl
  have final : system.act (.operation (.insert writer id row)) = system.withStore after := by
    change system.withStore (system.store.insert writer id row).2.2 = _
    rw [refused]
  have next := since.step (.operation (.insert writer id row)) member trivial
  rwa [same, final] at next

/-- Behind `UInt32.size - 1` full pages with nothing dirty, two inserts of one transaction fail, and
page 0 is zeros after the second. -/
theorem Coherent.overwritten {writer : TransactionId} {table : Table} {row : Row} {count : Nat}
    (coherent : system.Coherent) (filled : system.store.bare.Filled writer table count)
    (undrafted : system.store.bare.drafts = ∅) (bounded : system.store.Bounded 1)
    (counted : table.slotsPerPage = .ok 1) (agrees : row.schema.agrees table.schema = true)
    (last : count + 1 = UInt32.size) :
    ∃ later, Since Action.Regular writer system [] later ∧
      table.pages.bytesAt later.store.directory 0 = List.replicate table.pages.pageSize 0 := by
  have room : system.store.bare.drafts.size < system.store.bare.capacity := by
    change _ < system.store.capacity
    rw [undrafted, bounded.capacityIs, Std.ExtTreeMap.size_empty]
    decide
  obtain ⟨grown, refused, whole, free⟩ :=
    Store.Coherent.insert_past filled.known counted agrees coherent.store filled room last
  have visits := Store.visits_of_refused refused
  have since := (Since.start : Since Action.Regular writer system [] system).refused
    ⟨trivial, trivial⟩ refused
  -- the only place in the cache is empty
  have capacity : grown.capacity = 1 := by
    have still := since.course.bounded bounded
    exact still.capacityIs
  have absent : grown.cache[table.page 0]? = none := by
    rw [← Option.not_isSome_iff_eq_none]
    intro present
    have some := size_pos_of_present present
    omega
  have known : grown.tables[table.id]? = some table := visits.tables_eq ▸ filled.known
  obtain ⟨later, again, zeros⟩ := Store.insert_uncounted known counted agrees
    (visits.strengthens.consistent filled.consistent)
    (fun other page different => (visits.strengthens.others other page different).trans
      (filled.unrivalled other page different)) absent free whole
  exact ⟨_, since.refused ⟨trivial, trivial⟩ again, zeros⟩

/-- Without `StaysCountable` flushed changes may be lost. Page 0 of `UInt32.size - 1` pages is dirty
and is flushed. Of the next two inserts the first appends a page, after which `count` is zero, and
the second writes zeros over page 0. They are there after the abort. -/
theorem flush_loses_changes :
    ∃ (system later : System) (cached : PageCopy) (flushed after : Store),
      Course Action.Regular (untouched (.empty "" []) 1 .standard fun _ _ => 0) system ∧
      system.store.cache[numbers.page 0]? = some cached ∧
      cached.page.dirtier = some ⟨1⟩ ∧ cached.page.contents = [some [.int 6]] ∧
      (Extent.locked ⟨1⟩).flush system.store = (.ok (), flushed) ∧
      numbers.pages.bytesAt flushed.directory 0 = cached.page.encode ∧
      Since Action.Regular ⟨1⟩ (system.withStore flushed) [] later ∧
      later.store.abort ⟨1⟩ = (.ok (), after) ∧
      numbers.pages.bytesAt after.directory 0 ≠ cached.page.encode := by
  let row : Row := ⟨numbers.schema, [.int 5], none, rfl⟩
  let other : Row := ⟨numbers.schema, [.int 6], none, rfl⟩
  obtain ⟨early, course, coherent, filled, undrafted, capacity⟩ :=
    @course_filled numbers row (.empty "" []) 1 .standard (fun _ _ => 0) (by decide) rfl rfl rfl
      ⟨1⟩ 4294967295 (by decide)
  have course := (course.step
    (.operation (.delete ⟨1⟩ (some ⟨numbers.page (UInt32.ofNat 0), 0⟩))) ⟨trivial, trivial⟩).step
    (.operation (.insert ⟨1⟩ numbers.id other)) ⟨trivial, trivial⟩
  -- page 0 is dirty, all others are written
  generalize freedIs : early.act
    (.operation (.delete ⟨1⟩ (some ⟨numbers.page (UInt32.ofNat 0), 0⟩))) = freed at course
  generalize systemIs : freed.act (.operation (.insert ⟨1⟩ numbers.id other)) = system at course
  obtain ⟨coherent, filled, -, drafts, alone⟩ := coherent.replace_filled filled rfl rfl
    (by rw [undrafted, capacity]; decide) (by decide) freedIs systemIs
  rw [undrafted] at drafts
  have drafted : system.store.bare.drafts[numbers.page 0]? = some ⟨⟨1⟩, [some other.stored]⟩ := by
    rw [drafts]
    exact Std.ExtTreeMap.getElem?_insert_self
  obtain ⟨cached, present, dirtied, contents⟩ := Store.cached_of_draft drafted
  -- the flush writes page 0
  have backed : system.store.Backed := ⟨coherent.store.distinct, coherent.store.faithful⟩
  obtain ⟨flushed, done, -, flushes⟩ := backed.flushes filled.consistent (.locked ⟨1⟩)
  obtain ⟨copy, table, -, known, encoded, written, -⟩ := flushes.written (numbers.page 0) cached
    present (PageCopy.isClean_eq_false dirtied) (Store.covers_of_alone rfl alone)
  obtain rfl : numbers = table := Option.some.inj (filled.known.symm.trans known)
  obtain ⟨table, known, faithful⟩ := backed.faithful (numbers.page 0) cached present
  obtain rfl : numbers = table := Option.some.inj (filled.known.symm.trans known)
  have flushedIs : system.act (.operation (.flush ⟨1⟩)) = system.withStore flushed := by
    change system.withStore (system.store.flushPages ⟨1⟩).2 = _
    rw [show system.store.flushPages ⟨1⟩ = _ from done]
  have bounded := (course.step (.operation (.flush ⟨1⟩)) ⟨trivial, trivial⟩).bounded
    (Store.Bounded.untouched (.empty "" []) 1 .standard fun _ _ => 0)
  rw [flushedIs] at bounded
  obtain ⟨coherent, filled, undrafted, -⟩ := coherent.flush_filled filled drafts alone flushedIs
  obtain ⟨later, since, zeros⟩ :=
    @Coherent.overwritten (system.withStore flushed) ⟨1⟩ numbers row 4294967295 coherent filled
      undrafted bounded rfl rfl rfl
  refine ⟨system, later, cached, flushed, _, course, present, dirtied, contents, done,
    written.trans encoded, since, Store.abort_ok _ _, fun same => ?_⟩
  rw [Store.directory_abort, zeros] at same
  have blank := faithful.sound.contents_of_zeros same.symm
  rw [contents] at blank
  cases blank

end System

end RecordStore
