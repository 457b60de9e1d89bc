import RecordStore.Proofs.Lock.Signals

set_option autoImplicit false

/-! `releaseAll` removes the index entry first and then visits the listed pages; `release` removes
one page from the entry. Both lead to the same records, index and signals in any order of the pages,
and releases commute and are idempotent. -/

namespace RecordStore

/-! ### Sets that are removed when empty -/

section Cut

variable {Key : Type} [Ord Key] [Std.TransOrd Key] [Std.LawfulEqOrd Key]

def cut (set : Std.ExtTreeSet Key) (key : Key) : Option (Std.ExtTreeSet Key) :=
  if (set.erase key).isEmpty then none else some (set.erase key)

theorem cut_of_absent {set : Std.ExtTreeSet Key} {key other : Key} (absent : key ∉ set)
    (present : other ∈ set) : cut set key = some set := by
  have same : set.erase key = set := by
    apply Std.ExtTreeSet.ext_mem
    intro member
    rw [Std.ExtTreeSet.mem_erase, Ne, Std.LawfulEqCmp.compare_eq_iff_eq]
    exact ⟨And.right, fun found => ⟨fun equal => absent (equal ▸ found), found⟩⟩
  rw [cut, same, if_neg]
  intro empty
  rw [Std.ExtTreeSet.isEmpty_iff.mp empty] at present
  exact Std.ExtTreeSet.not_mem_empty present

theorem cut_of_only {set : Std.ExtTreeSet Key} {key : Key} (only : ∀ other ∈ set, other = key) :
    cut set key = none := by
  apply if_pos
  rw [Std.ExtTreeSet.isEmpty_iff, Std.ExtTreeSet.eq_empty_iff_forall_not_mem]
  intro other
  rw [Std.ExtTreeSet.mem_erase, Ne, Std.LawfulEqCmp.compare_eq_iff_eq]
  rintro ⟨different, member⟩
  exact different (only other member).symm

theorem cut_of_other {set : Std.ExtTreeSet Key} {key other : Key} (member : other ∈ set)
    (different : other ≠ key) : cut set key = some (set.erase key) := by
  apply if_neg
  intro empty
  have left : other ∈ set.erase key := by
    rw [Std.ExtTreeSet.mem_erase, Ne, Std.LawfulEqCmp.compare_eq_iff_eq]
    exact ⟨fun same => different same.symm, member⟩
  rw [Std.ExtTreeSet.isEmpty_iff.mp empty] at left
  exact Std.ExtTreeSet.not_mem_empty left

omit [Std.LawfulEqOrd Key] in
theorem cut_bind_cut (set : Std.ExtTreeSet Key) (first second : Key) :
    (cut set first).bind (cut · second) =
      if ((set.erase first).erase second).isEmpty then none
      else some ((set.erase first).erase second) := by
  unfold cut
  by_cases empty : (set.erase first).isEmpty
  · have nothing : ((set.erase first).erase second).isEmpty := by
      rw [Std.ExtTreeSet.isEmpty_iff.mp empty]
      rfl
    rw [if_pos empty, if_pos nothing]
    rfl
  · rw [if_neg empty]
    rfl

theorem cut_comm (set : Std.ExtTreeSet Key) (first second : Key) :
    (cut set first).bind (cut · second) = (cut set second).bind (cut · first) := by
  have same : (set.erase first).erase second = (set.erase second).erase first := by
    apply Std.ExtTreeSet.ext_mem
    intro member
    simp only [Std.ExtTreeSet.mem_erase]
    exact and_left_comm
  rw [cut_bind_cut, cut_bind_cut, same]

theorem cut_cut (set : Std.ExtTreeSet Key) (key : Key) :
    (cut set key).bind (cut · key) = cut set key := by
  have same : (set.erase key).erase key = set.erase key := by
    apply Std.ExtTreeSet.ext_mem
    intro member
    simp only [Std.ExtTreeSet.mem_erase, and_self_left]
  rw [cut_bind_cut, same]
  rfl

end Cut

namespace LockRecord

theorem without_shared (holders : TransactionSet) (transaction : TransactionId) :
    (LockRecord.shared holders).without transaction = (cut holders transaction).map .shared := by
  simp only [without, cut]
  split <;> rfl

theorem without_exclusive (holder transaction : TransactionId) :
    (LockRecord.exclusive holder).without transaction =
      if holder = transaction then none else some (.exclusive holder) :=
  rfl

theorem without_comm (record : LockRecord) (transaction other : TransactionId) :
    (record.without transaction).bind (·.without other) =
      (record.without other).bind (·.without transaction) := by
  cases record with
  | shared holders =>
      have both : ∀ first second : TransactionId,
          ((LockRecord.shared holders).without first).bind (·.without second) =
            ((cut holders first).bind (cut · second)).map .shared := by
        intro first second
        rw [without_shared]
        cases cut holders first with
        | none => rfl
        | some left => exact without_shared left second
      rw [both, both, cut_comm]
  | exclusive holder =>
      rw [without_exclusive, without_exclusive]
      by_cases own : holder = transaction
      · rw [if_pos own]
        by_cases foreign : holder = other
        · rw [if_pos foreign]
          rfl
        · rw [if_neg foreign, Option.bind_some, without_exclusive, if_pos own]
          rfl
      · rw [if_neg own, Option.bind_some, without_exclusive]
        by_cases foreign : holder = other
        · rw [if_pos foreign]
          rfl
        · rw [if_neg foreign, Option.bind_some, without_exclusive, if_neg own]

theorem without_without (record : LockRecord) (transaction : TransactionId) :
    (record.without transaction).bind (·.without transaction) = record.without transaction := by
  cases record with
  | shared holders =>
      have twice := cut_cut holders transaction
      rw [without_shared]
      cases left : cut holders transaction with
      | none => rfl
      | some rest =>
          rw [left, Option.bind_some] at twice
          rw [Option.map_some, Option.bind_some, without_shared, twice]
          rfl
  | exclusive holder =>
      rw [without_exclusive]
      by_cases own : holder = transaction
      · rw [if_pos own]
        rfl
      · rw [if_neg own, Option.bind_some, without_exclusive, if_neg own]

theorem without_of_not_holds {record : LockRecord} {transaction holder : TransactionId}
    (held : (record.modeOf holder).isSome) (idle : record.holds transaction = false) :
    record.without transaction = some record := by
  cases record with
  | shared holders =>
      rw [modeOf_shared] at held
      split at held
      · next present =>
          have absent : transaction ∉ holders := by
            rw [← Std.ExtTreeSet.contains_iff_mem]
            exact Bool.not_eq_true _ ▸ idle
          rw [without_shared, cut_of_absent absent (Std.ExtTreeSet.contains_iff_mem.mp present)]
          rfl
      · cases held
  | exclusive owner =>
      have other : owner ≠ transaction := beq_eq_false_iff_ne.mp idle
      exact if_neg other

end LockRecord

namespace LockTable

variable {table after left right : LockTable} {transaction : TransactionId} {page : PageId}

/-! ### One page -/

theorem eq_of_lookups (records : ∀ page : PageId, left.records[page]? = right.records[page]?)
    (held : ∀ transaction : TransactionId, left.held[transaction]? = right.held[transaction]?)
    (queues : left.queues = right.queues) (next : left.nextChannel = right.nextChannel) :
    left = right := by
  obtain ⟨leftRecords, leftHeld, leftQueues, leftNext⟩ := left
  obtain ⟨rightRecords, rightHeld, rightQueues, rightNext⟩ := right
  have sameRecords : leftRecords = rightRecords :=
    Std.ExtTreeMap.ext_getElem? fun page => records page
  have sameHeld : leftHeld = rightHeld :=
    Std.ExtTreeMap.ext_getElem? fun holder => held holder
  subst sameRecords sameHeld queues next
  rfl

theorem without_idle (inhabited : table.Inhabited)
    (idle : table.holds transaction page = false) :
    table.records[page]?.bind (·.without transaction) = table.records[page]? := by
  cases present : table.records[page]? with
  | none => rfl
  | some record =>
      obtain ⟨holder, held⟩ := inhabited page (by rw [present]; rfl)
      rw [modeOf_of_record present] at held
      rw [holds, present] at idle
      exact LockRecord.without_of_not_holds held idle

theorem records_dropHolder (inhabited : table.Inhabited) (transaction : TransactionId)
    (page place : PageId) :
    (table.dropHolder transaction page).2.records[place]? =
      if page = place then table.records[place]?.bind (·.without transaction)
      else table.records[place]? := by
  by_cases here : page = place
  · subst here
    rw [if_pos rfl]
    cases holding : table.holds transaction page with
    | false =>
        have same : (table.dropHolder transaction page).2 = table := by
          unfold dropHolder
          rw [holds] at holding
          cases present : table.records[page]? with
          | none => rfl
          | some record =>
              rw [present] at holding
              simp only [holding, Bool.false_eq_true, if_false]
        rw [same, without_idle inhabited holding]
    | true =>
        obtain ⟨record, present, holds⟩ := (table.holds_iff transaction page).mp holding
        unfold dropHolder
        simp only [present, if_pos holds, Option.bind_some]
        cases record.without transaction with
        | none => exact (lookup_erase _ _ _).trans (if_pos rfl)
        | some left => exact (lookup_insert _ _ _ _).trans (if_pos rfl)
  · rw [if_neg here, records_dropHolder_other here]

theorem held_unindex (table : LockTable) (transaction other : TransactionId) (page : PageId) :
    (table.unindex transaction page).held[other]? =
      if transaction = other then table.held[other]?.bind (cut · page)
      else table.held[other]? := by
  cases present : table.held[transaction]? with
  | none =>
      have same : table.unindex transaction page = table := by
        rw [unindex, present]
      rw [same]
      by_cases own : transaction = other
      · rw [if_pos own, ← own, present]
        rfl
      · rw [if_neg own]
  | some pages =>
      have entry : (table.unindex transaction page).held[other]? =
          if transaction = other then cut pages page else table.held[other]? := by
        simp only [unindex, present, cut]
        split
        · exact lookup_erase _ _ _
        · exact lookup_insert _ _ _ _
      rw [entry]
      by_cases own : transaction = other
      · rw [if_pos own, if_pos own, ← own, present]
        rfl
      · rw [if_neg own, if_neg own]

theorem records_release (inhabited : table.Inhabited) (transaction : TransactionId)
    (page place : PageId) :
    (table.release transaction page).2.records[place]? =
      if page = place then table.records[place]?.bind (·.without transaction)
      else table.records[place]? := by
  rw [release, records_dropHolder (inhabited.unindex transaction page), records_unindex]

theorem held_release (table : LockTable) (transaction other : TransactionId) (page : PageId) :
    (table.release transaction page).2.held[other]? =
      if transaction = other then table.held[other]?.bind (cut · page)
      else table.held[other]? := by
  rw [release, held_dropHolder, held_unindex]

theorem queues_release (table : LockTable) (transaction : TransactionId) (page : PageId) :
    (table.release transaction page).2.queues = table.queues :=
  (table.releases_release transaction page).queues

theorem channel?_of_queues (queues : after.queues = table.queues) (page : PageId) :
    after.channel? page = table.channel? page := by
  rw [channel?, channel?, queues]

theorem signal_release (table : LockTable) (transaction : TransactionId) (page : PageId) :
    (table.release transaction page).1 =
      if table.holds transaction page then table.channel? page else none := by
  rw [release, dropHolder_signal, channel?_of_queues (table.queues_unindex transaction page),
    holds_of_same (congrArg (·[page]?) (table.records_unindex transaction page))]

theorem Inhabited.release (inhabited : table.Inhabited) :
    (table.release transaction page).2.Inhabited :=
  (inhabited.unindex transaction page).dropHolder

theorem release_comm (inhabited : table.Inhabited) (transaction other : TransactionId)
    (page place : PageId) :
    ((table.release transaction page).2.release other place).2 =
      ((table.release other place).2.release transaction page).2 := by
  apply eq_of_lookups
  · intro position
    rw [records_release inhabited.release, records_release inhabited,
      records_release inhabited.release, records_release inhabited]
    split <;> split
    · cases table.records[position]? with
      | none => rfl
      | some record => exact record.without_comm transaction other
    · rfl
    · rfl
    · rfl
  · intro holder
    rw [held_release, held_release, held_release, held_release]
    split <;> split
    · cases table.held[holder]? with
      | none => rfl
      | some pages => exact cut_comm pages page place
    · rfl
    · rfl
    · rfl
  · rw [queues_release, queues_release, queues_release, queues_release]
  · rw [nextChannel_release, nextChannel_release, nextChannel_release, nextChannel_release]

theorem signal_release_release {other : TransactionId} {place : PageId}
    (different : ¬ (other = transaction ∧ place = page)) :
    ((table.release transaction page).2.release other place).1 =
      (table.release other place).1 := by
  rw [signal_release, signal_release, channel?_of_queues (table.queues_release transaction page),
    holds_eq, holds_eq, modeOf_release, if_neg different]

theorem release_again (inhabited : table.Inhabited) (transaction : TransactionId)
    (page : PageId) :
    (table.release transaction page).2.release transaction page =
      (none, (table.release transaction page).2) := by
  apply Prod.ext
  · have idle : (table.release transaction page).2.holds transaction page = false := by
      rw [holds_eq, modeOf_release, if_pos (And.intro rfl rfl)]
      rfl
    rw [signal_release, idle]
    rfl
  · apply eq_of_lookups
    · intro place
      rw [records_release inhabited.release, records_release inhabited]
      split
      · cases table.records[place]? with
        | none => rfl
        | some record => exact record.without_without transaction
      · rfl
    · intro holder
      rw [held_release, held_release]
      split
      · cases table.held[holder]? with
        | none => rfl
        | some pages => exact cut_cut pages page
      · rfl
    · rw [queues_release]
    · rw [nextChannel_release]

theorem release_of_idle (inhabited : table.Inhabited)
    (idle : table.holds transaction page = false) (unlisted : table.held[transaction]? = none) :
    table.release transaction page = (none, table) := by
  apply Prod.ext
  · rw [signal_release, idle]
    rfl
  · apply eq_of_lookups
    · intro place
      rw [records_release inhabited]
      split
      · next here => rw [← here, without_idle inhabited idle]
      · rfl
    · intro other
      rw [held_release]
      split
      · next own => rw [← own, unlisted]; rfl
      · rfl
    · exact table.queues_release transaction page
    · exact table.nextChannel_release transaction page

def withoutEntry (table : LockTable) (transaction : TransactionId) : LockTable :=
  { table with held := table.held.erase transaction }

theorem releaseAll_eq_dropAll (table : LockTable) (transaction : TransactionId) :
    table.releaseAll transaction =
      (table.withoutEntry transaction).dropAll transaction (table.pagesOf transaction) :=
  rfl

theorem releaseAll_of_unlisted (unlisted : table.held[transaction]? = none) :
    table.releaseAll transaction = ([], table) := by
  have none : table.pagesOf transaction = [] := by
    rw [pagesOf, heldPages, Std.ExtTreeMap.getD_eq_getD_getElem?, unlisted]
    rfl
  have same : table.withoutEntry transaction = table := by
    rw [withoutEntry, erase_of_absent unlisted]
  rw [releaseAll_eq_dropAll, none, same]
  rfl

/-! ### Page by page -/

def releaseEach (table : LockTable) (transaction : TransactionId) :
    List PageId → List Channel × LockTable
  | [] => ([], table)
  | page :: pages =>
      let (signal, table) := table.release transaction page
      let (signals, table) := releaseEach table transaction pages
      (signal.toList ++ signals, table)

theorem releaseEach_cons (table : LockTable) (transaction : TransactionId) (page : PageId)
    (pages : List PageId) :
    table.releaseEach transaction (page :: pages) =
      ((table.release transaction page).1.toList ++
          ((table.release transaction page).2.releaseEach transaction pages).1,
        ((table.release transaction page).2.releaseEach transaction pages).2) :=
  rfl

def Covers (table : LockTable) (transaction : TransactionId) (pages : List PageId) : Prop :=
  ∀ page, table.holds transaction page = true → page ∈ pages

theorem Covers.of_dropHolder {pages : List PageId}
    (covers : table.Covers transaction (page :: pages)) :
    (table.dropHolder transaction page).2.Covers transaction pages := by
  intro place held
  rw [holds_eq, modeOf_dropHolder] at held
  by_cases here : place = page
  · rw [if_pos ⟨rfl, here⟩] at held
    cases held
  · rw [if_neg fun both => here both.2, ← holds_eq] at held
    exact (List.mem_cons.mp (covers place held)).resolve_left here

/-- `dropAll` takes the transaction off each record, in whatever order it visits the pages. -/
theorem records_dropAll {pages : List PageId} (inhabited : table.Inhabited)
    (covers : table.Covers transaction pages) (place : PageId) :
    (table.dropAll transaction pages).2.records[place]? =
      table.records[place]?.bind (·.without transaction) := by
  induction pages generalizing table with
  | nil =>
      have idle : table.holds transaction place = false :=
        Bool.eq_false_iff.mpr fun held => List.not_mem_nil (covers place held)
      exact (without_idle inhabited idle).symm
  | cons page pages ih =>
      -- The remaining pages are visited in the table without this holder, and `without` is
      -- idempotent.
      refine (ih inhabited.dropHolder covers.of_dropHolder).trans ?_
      rw [records_dropHolder inhabited]
      split
      · cases table.records[place]? with
        | none => rfl
        | some record => exact record.without_without transaction
      · rfl

/-- The index has no part in the records and signals of `dropHolder`. -/
theorem dropHolder_congr (records : left.records = right.records)
    (queues : left.queues = right.queues) (transaction : TransactionId) (page : PageId) :
    (left.dropHolder transaction page).1 = (right.dropHolder transaction page).1 ∧
      (left.dropHolder transaction page).2.records =
        (right.dropHolder transaction page).2.records := by
  unfold dropHolder
  rw [records, queues]
  cases right.records[page]? with
  | none => exact ⟨rfl, records⟩
  | some record =>
      simp only
      split
      · cases record.without transaction with
        | none => exact ⟨rfl, rfl⟩
        | some rest => exact ⟨rfl, rfl⟩
      · exact ⟨rfl, records⟩

theorem releaseEach_eq_dropAll (records : left.records = right.records)
    (queues : left.queues = right.queues) (transaction : TransactionId) (pages : List PageId) :
    (left.releaseEach transaction pages).1 = (right.dropAll transaction pages).1 ∧
      (left.releaseEach transaction pages).2.records =
        (right.dropAll transaction pages).2.records := by
  induction pages generalizing left right with
  | nil => exact ⟨rfl, records⟩
  | cons page pages ih =>
      have first := dropHolder_congr ((left.records_unindex transaction page).trans records)
        ((left.queues_unindex transaction page).trans queues) transaction page
      have others := @ih (left.release transaction page).2 (right.dropHolder transaction page).2
        first.2 (by rw [queues_release, queues_dropHolder, queues])
      have signal : (left.release transaction page).1 = (right.dropHolder transaction page).1 :=
        first.1
      have walked : (right.dropAll transaction (page :: pages)).1 =
          (right.dropHolder transaction page).1.toList ++
            ((right.dropHolder transaction page).2.dropAll transaction pages).1 := rfl
      refine ⟨?_, others.2⟩
      rw [releaseEach_cons, walked, ← signal, ← others.1]

theorem queues_releaseEach (table : LockTable) (transaction : TransactionId)
    (pages : List PageId) : (table.releaseEach transaction pages).2.queues = table.queues := by
  induction pages generalizing table with
  | nil => rfl
  | cons page pages ih =>
      exact (ih (table.release transaction page).2).trans (table.queues_release transaction page)

theorem nextChannel_releaseEach (table : LockTable) (transaction : TransactionId)
    (pages : List PageId) :
    (table.releaseEach transaction pages).2.nextChannel = table.nextChannel := by
  induction pages generalizing table with
  | nil => rfl
  | cons page pages ih =>
      exact (ih (table.release transaction page).2).trans
        (table.nextChannel_release transaction page)

/-- The index entry goes with the last page, in whatever order the pages are released. -/
theorem held_releaseEach {pages : List PageId} (trim : table.Trim)
    (listed : ∀ page ∈ table.heldPages transaction, page ∈ pages) (other : TransactionId) :
    (table.releaseEach transaction pages).2.held[other]? =
      if transaction = other then none else table.held[other]? := by
  induction pages generalizing table with
  | nil =>
      change table.held[other]? = _
      split
      · next same =>
          subst same
          cases present : table.held[transaction]? with
          | none => rfl
          | some pages =>
              -- The entry would list no page, which `trim` excludes.
              refine absurd (Std.ExtTreeSet.eq_empty_iff_forall_not_mem.mpr ?_)
                (trim transaction pages present)
              intro page member
              exact List.not_mem_nil (listed page
                ((table.mem_heldPages_iff transaction page).mpr ⟨pages, present, member⟩))
      · rfl
  | cons page pages ih =>
      have released : (table.release transaction page).2.Trim :=
        trim.rewrites (.released transaction page rfl)
      have left : ∀ place ∈ (table.release transaction page).2.heldPages transaction,
          place ∈ pages := by
        intro place member
        rw [release, heldPages, held_dropHolder] at member
        obtain ⟨elsewhere, before⟩ :=
          (table.mem_heldPages_unindex transaction page transaction place).mp member
        exact (List.mem_cons.mp (listed place before)).resolve_left fun here =>
          elsewhere ⟨rfl, here⟩
      refine (ih released left).trans ?_
      rw [held_release]
      split <;> rfl

theorem covers_of_perm (consistent : table.Consistent) {pages : List PageId}
    (order : pages.Perm (table.pagesOf transaction)) : table.Covers transaction pages := by
  intro page held
  rw [order.mem_iff, mem_pagesOf_iff consistent, ← holds_eq]
  exact held

/-- Once the index entry is gone, visiting the pages in any order takes the transaction off each
record. -/
theorem records_walk (inhabited : table.Inhabited) {pages : List PageId}
    (covers : table.Covers transaction pages) (place : PageId) :
    ((table.withoutEntry transaction).dropAll transaction pages).2.records[place]? =
      table.records[place]?.bind (·.without transaction) := by
  have same : (table.withoutEntry transaction).Inhabited := inhabited
  have also : (table.withoutEntry transaction).Covers transaction pages := covers
  exact records_dropAll same also place

theorem held_walk (table : LockTable) (transaction other : TransactionId) (pages : List PageId) :
    ((table.withoutEntry transaction).dropAll transaction pages).2.held[other]? =
      if transaction = other then none else table.held[other]? := by
  rw [held_dropAll]
  exact lookup_erase _ _ _

theorem queues_walk (table : LockTable) (transaction : TransactionId) (pages : List PageId) :
    ((table.withoutEntry transaction).dropAll transaction pages).2.queues = table.queues :=
  ((table.withoutEntry transaction).releases_dropAll transaction pages).queues

theorem nextChannel_walk (table : LockTable) (transaction : TransactionId)
    (pages : List PageId) :
    ((table.withoutEntry transaction).dropAll transaction pages).2.nextChannel =
      table.nextChannel :=
  (table.withoutEntry transaction).nextChannel_dropAll transaction pages

theorem walk_eq_releaseAll (consistent : table.Consistent) {pages : List PageId}
    (covers : table.Covers transaction pages) :
    ((table.withoutEntry transaction).dropAll transaction pages).2 =
      (table.releaseAll transaction).2 := by
  have own := covers_of_perm consistent (.refl (table.pagesOf transaction))
  rw [releaseAll_eq_dropAll]
  apply eq_of_lookups
  · intro place
    rw [records_walk consistent.inhabited covers, records_walk consistent.inhabited own]
  · intro other
    rw [held_walk, held_walk]
  · rw [queues_walk, queues_walk]
  · rw [nextChannel_walk, nextChannel_walk]

theorem releaseEach_eq_walk (table : LockTable) (transaction : TransactionId)
    (pages : List PageId) :
    (table.releaseEach transaction pages).1 =
        ((table.withoutEntry transaction).dropAll transaction pages).1 ∧
      (table.releaseEach transaction pages).2.records =
        ((table.withoutEntry transaction).dropAll transaction pages).2.records := by
  have records : table.records = (table.withoutEntry transaction).records := rfl
  exact releaseEach_eq_dropAll records rfl transaction pages

theorem releaseEach_eq_releaseAll (consistent : table.Consistent) (trim : table.Trim)
    {pages : List PageId} (covers : table.Covers transaction pages) :
    (table.releaseEach transaction pages).2 = (table.releaseAll transaction).2 := by
  rw [← walk_eq_releaseAll consistent covers]
  apply eq_of_lookups
  · intro place
    rw [(table.releaseEach_eq_walk transaction pages).2]
  · intro other
    have listed : ∀ page ∈ table.heldPages transaction, page ∈ pages := by
      intro page member
      apply covers
      rw [holds_eq, ← consistent.indexed]
      exact member
    rw [held_releaseEach trim listed, held_walk]
  · rw [queues_releaseEach, queues_walk]
  · rw [nextChannel_releaseEach, nextChannel_walk]

/-! ### Signalled pages -/

/-- The channel of the page is among these. -/
def Signalled (table : LockTable) (signals : List Channel) (page : PageId) : Prop :=
  ∃ channel ∈ signals, table.channel? page = some channel

theorem mem_signals_walk {pages : List PageId} (covers : table.Covers transaction pages)
    (channel : Channel) :
    channel ∈ ((table.withoutEntry transaction).dropAll transaction pages).1 ↔
      ∃ page, table.holds transaction page = true ∧ table.channel? page = some channel := by
  rw [mem_signals_dropAll]
  constructor
  · rintro ⟨page, -, holding, found⟩
    exact ⟨page, holding, found⟩
  · rintro ⟨page, holding, found⟩
    exact ⟨page, covers page holding, holding, found⟩

theorem mem_signals_releaseEach {pages : List PageId} (covers : table.Covers transaction pages)
    (channel : Channel) :
    channel ∈ (table.releaseEach transaction pages).1 ↔
      ∃ page, table.holds transaction page = true ∧ table.channel? page = some channel := by
  rw [(table.releaseEach_eq_walk transaction pages).1, mem_signals_walk covers]

theorem signalled_iff (apart : table.Apart) {signals : List Channel}
    (exact : ∀ channel, channel ∈ signals ↔
      ∃ page, table.holds transaction page = true ∧ table.channel? page = some channel)
    (page : PageId) :
    table.Signalled signals page ↔
      table.holds transaction page = true ∧ (table.channel? page).isSome = true := by
  rw [Option.isSome_iff_exists]
  constructor
  · rintro ⟨channel, member, listening⟩
    obtain ⟨place, holding, found⟩ := (exact channel).mp member
    rw [apart.distinct page place channel listening found]
    exact ⟨holding, channel, found⟩
  · rintro ⟨holding, channel, listening⟩
    exact ⟨channel, (exact channel).mpr ⟨page, holding, listening⟩, listening⟩

/-! ### Pages released and kept -/

structure Loses (table after : LockTable) (transaction : TransactionId) (freed : PageId → Prop) :
    Prop where
  vacant : ∀ page : PageId, table.records[page]? = none → after.records[page]? = none
  kept : ∀ (page : PageId) (record : LockRecord), table.records[page]? = some record →
    (freed page → record.holds transaction = false) → after.records[page]? = some record
  alone : ∀ page : PageId, freed page → table.records[page]? = some (.exclusive transaction) →
    after.records[page]? = none
  last : ∀ (page : PageId) (holders : TransactionSet), freed page →
    table.records[page]? = some (.shared holders) → (∀ other ∈ holders, other = transaction) →
    after.records[page]? = none
  others : ∀ (page : PageId) (holders : TransactionSet), freed page →
    table.records[page]? = some (.shared holders) → (∃ other ∈ holders, other ≠ transaction) →
    after.records[page]? = some (.shared (holders.erase transaction))
  index : ∀ other : TransactionId, other ≠ transaction → after.held[other]? = table.held[other]?
  queues : after.queues = table.queues

theorem loses_of_records {freed : PageId → Prop} (inhabited : table.Inhabited)
    (gone : ∀ page : PageId, freed page →
      after.records[page]? = table.records[page]?.bind (·.without transaction))
    (same : ∀ page : PageId, ¬ freed page → after.records[page]? = table.records[page]?)
    (index : ∀ other : TransactionId, other ≠ transaction → after.held[other]? = table.held[other]?)
    (queues : after.queues = table.queues) : table.Loses after transaction freed where
  vacant page vacant := by
    by_cases free : freed page
    · rw [gone page free, vacant]
      rfl
    · rw [same page free, vacant]
  kept page record present idle := by
    by_cases free : freed page
    · have absent : table.holds transaction page = false := by
        rw [holds, present]
        exact idle free
      rw [gone page free, without_idle inhabited absent, present]
    · rw [same page free, present]
  alone page free present := by
    rw [gone page free, present]
    exact if_pos rfl
  last page holders free present only := by
    rw [gone page free, present, Option.bind_some, LockRecord.without_shared, cut_of_only only]
    rfl
  others page holders free present more := by
    obtain ⟨other, member, foreign⟩ := more
    rw [gone page free, present, Option.bind_some, LockRecord.without_shared,
      cut_of_other member foreign]
    rfl
  index := index
  queues := queues

theorem loses_release (inhabited : table.Inhabited) (transaction : TransactionId) (page : PageId) :
    table.Loses (table.release transaction page).2 transaction (· = page) := by
  apply loses_of_records inhabited
  · rintro place rfl
    rw [records_release inhabited, if_pos rfl]
  · intro place elsewhere
    rw [records_release inhabited, if_neg fun here => elsewhere here.symm]
  · intro other foreign
    rw [held_release, if_neg fun same => foreign same.symm]
  · exact table.queues_release transaction page

theorem loses_releaseAll (consistent : table.Consistent) (transaction : TransactionId) :
    table.Loses (table.releaseAll transaction).2 transaction fun _ => True := by
  apply loses_of_records consistent.inhabited
  · intro place _
    exact records_walk consistent.inhabited
      (covers_of_perm consistent (.refl (table.pagesOf transaction))) place
  · intro place never
    exact absurd trivial never
  · intro other foreign
    exact (held_walk table transaction other _).trans (if_neg fun same => foreign same.symm)
  · exact (table.releases_releaseAll transaction).queues

end LockTable

namespace LockService

variable {service : LockService} {transaction : TransactionId} {page : PageId}

/-! ### Requests woken by a release -/

theorem signal_nil (service : LockService) : service.signal [] = service := by
  have same : service.parked.map (fun request =>
      if ([] : List Channel).contains request.channel then { request with signalled := true }
      else request) = service.parked :=
    List.map_id _
  rw [signal, same]

theorem signal_congr {first second : List Channel}
    (same : ∀ channel, channel ∈ first ↔ channel ∈ second) :
    service.signal first = service.signal second := by
  have contained : ∀ channel, first.contains channel = second.contains channel := by
    intro channel
    rw [Bool.eq_iff_iff, List.contains_iff_mem, List.contains_iff_mem, same]
  simp only [signal, contained]

theorem signal_signal (service : LockService) (table : LockTable) (first second : List Channel) :
    ({ service.signal first with table := table }).signal second =
      ({ service with table := table }).signal (first ++ second) := by
  have each : ∀ request : LockRequest,
      (if second.contains (if first.contains request.channel
          then { request with signalled := true } else request).channel
        then { (if first.contains request.channel then { request with signalled := true }
          else request) with signalled := true }
        else if first.contains request.channel then { request with signalled := true }
          else request) =
        if (first ++ second).contains request.channel then { request with signalled := true }
        else request := by
    intro request
    rw [List.contains_append]
    cases first.contains request.channel with
    | false => rfl
    | true =>
        rw [if_pos rfl, Bool.true_or, if_pos rfl]
        exact ite_self _
  simp only [signal, List.map_map, Function.comp_def, each]

theorem foldl_release (transaction : TransactionId) (pages : List PageId) (service : LockService) :
    pages.foldl (fun service page => service.release transaction page) service =
      ({ service with table := (service.table.releaseEach transaction pages).2 }).signal
        (service.table.releaseEach transaction pages).1 := by
  induction pages generalizing service with
  | nil => exact service.signal_nil.symm
  | cons page pages ih =>
      rw [List.foldl_cons, ih]
      exact signal_signal { service with table := (service.table.release transaction page).2 } _
        (service.table.release transaction page).1.toList _

theorem foldl_release_eq_releaseAll (consistent : service.table.Consistent)
    (trim : service.table.Trim) {pages : List PageId}
    (covers : service.table.Covers transaction pages) :
    pages.foldl (fun service page => service.release transaction page) service =
      service.releaseAll transaction := by
  rw [foldl_release, LockTable.releaseEach_eq_releaseAll consistent trim covers]
  exact signal_congr fun channel => (LockTable.mem_signals_releaseEach covers channel).trans
    (LockTable.mem_signals_releaseAll consistent transaction channel).symm

theorem release_comm (inhabited : service.table.Inhabited) (transaction other : TransactionId)
    (page place : PageId) :
    (service.release transaction page).release other place =
      (service.release other place).release transaction page := by
  by_cases same : other = transaction ∧ place = page
  · rw [same.1, same.2]
  · have back : ¬ (transaction = other ∧ page = place) := fun both =>
      same ⟨both.1.symm, both.2.symm⟩
    have left := signal_signal
      { service with table := (service.table.release transaction page).2 }
      ((service.table.release transaction page).2.release other place).2
      (service.table.release transaction page).1.toList
      ((service.table.release transaction page).2.release other place).1.toList
    have right := signal_signal
      { service with table := (service.table.release other place).2 }
      ((service.table.release other place).2.release transaction page).2
      (service.table.release other place).1.toList
      ((service.table.release other place).2.release transaction page).1.toList
    -- Both ways the same channels are signalled, in the other order.
    refine left.trans (Eq.trans ?_ right.symm)
    rw [LockTable.signal_release_release same, LockTable.signal_release_release back,
      LockTable.release_comm inhabited]
    apply signal_congr
    intro channel
    rw [List.mem_append, List.mem_append, Or.comm]

/-- A release that changes no table and signals nothing leaves the service as it is. -/
theorem release_of_table (same : service.table.release transaction page = (none, service.table)) :
    service.release transaction page = service := by
  rw [release, same]
  exact service.signal_nil

theorem releaseAll_of_table (same : service.table.releaseAll transaction = ([], service.table)) :
    service.releaseAll transaction = service := by
  rw [releaseAll, same]
  exact service.signal_nil

/-! ### Releases in reachable states -/

/-- The relation between `release` and `releaseAll`, and what both keep. -/
structure ReleaseLaws (service : LockService) : Prop where
  anyOrder : ∀ (transaction : TransactionId) (pages : List PageId),
    pages.Perm (service.table.pagesOf transaction) →
    pages.foldl (fun service page => service.release transaction page) service =
      service.releaseAll transaction
  sameSignals : ∀ (transaction : TransactionId) (pages : List PageId),
    pages.Perm (service.table.pagesOf transaction) → ∀ page,
    (service.table.Signalled (service.table.releaseEach transaction pages).1 page ↔
      service.table.Signalled (service.table.releaseAll transaction).1 page)
  anyWalk : ∀ (transaction : TransactionId) (pages : List PageId),
    pages.Perm (service.table.pagesOf transaction) →
    ((service.table.withoutEntry transaction).dropAll transaction pages).2 =
      (service.table.releaseAll transaction).2
  signalled : ∀ (transaction : TransactionId) (page : PageId),
    service.table.Signalled (service.table.releaseAll transaction).1 page ↔
      service.table.holds transaction page = true ∧ (service.table.channel? page).isSome = true
  commute : ∀ (transaction other : TransactionId) (page place : PageId),
    (service.release transaction page).release other place =
      (service.release other place).release transaction page
  apart : ∀ (transaction other : TransactionId) (page place : PageId),
    ¬ (other = transaction ∧ place = page) →
    ((service.table.release transaction page).2.release other place).1 =
      (service.table.release other place).1
  again : ∀ (transaction : TransactionId) (page : PageId),
    (service.table.release transaction page).2.release transaction page =
        (none, (service.table.release transaction page).2) ∧
      (service.release transaction page).release transaction page =
        service.release transaction page
  afterAll : ∀ (transaction : TransactionId) (page : PageId),
    (service.table.releaseAll transaction).2.release transaction page =
        (none, (service.table.releaseAll transaction).2) ∧
      (service.releaseAll transaction).release transaction page = service.releaseAll transaction
  allAgain : ∀ transaction : TransactionId,
    (service.table.releaseAll transaction).2.releaseAll transaction =
        ([], (service.table.releaseAll transaction).2) ∧
      (service.releaseAll transaction).releaseAll transaction = service.releaseAll transaction
  losesPage : ∀ (transaction : TransactionId) (page : PageId),
    service.table.Loses (service.table.release transaction page).2 transaction (· = page)
  losesAll : ∀ transaction : TransactionId,
    service.table.Loses (service.table.releaseAll transaction).2 transaction fun _ => True

variable {range : WaitRange} {history : List LockEvent}

/-- After any run, `releaseAll` leaves the service as releasing the pages one by one in any order
does, with the same channels signalled. Releases commute and are idempotent, and change no lock of
another transaction. -/
theorem releases_agree (run : Run (LockService.start range) history service) :
    service.ReleaseLaws where
  anyOrder transaction pages order :=
    foldl_release_eq_releaseAll run.realizes.consistent run.trim
      (LockTable.covers_of_perm run.realizes.consistent order)
  sameSignals transaction pages order page := by
    have consistent := run.realizes.consistent
    have apart := (run.tidy (Tidy.start range)).apart
    have covers := LockTable.covers_of_perm consistent order
    rw [LockTable.signalled_iff apart (LockTable.mem_signals_releaseEach covers),
      LockTable.signalled_iff apart (LockTable.mem_signals_releaseAll consistent transaction)]
  anyWalk transaction pages order :=
    LockTable.walk_eq_releaseAll run.realizes.consistent
      (LockTable.covers_of_perm run.realizes.consistent order)
  signalled transaction page :=
    LockTable.signalled_iff (run.tidy (Tidy.start range)).apart
      (LockTable.mem_signals_releaseAll run.realizes.consistent transaction) page
  commute transaction other page place :=
    release_comm run.realizes.consistent.inhabited transaction other page place
  apart _ _ _ _ different := LockTable.signal_release_release different
  again transaction page := by
    have same := LockTable.release_again run.realizes.consistent.inhabited transaction page
    exact ⟨same, release_of_table same⟩
  afterAll transaction page := by
    have consistent := run.realizes.consistent
    have same : (service.table.releaseAll transaction).2.release transaction page =
        (none, (service.table.releaseAll transaction).2) := by
      apply LockTable.release_of_idle consistent.releaseAll.inhabited
      · rw [LockTable.holds_eq, LockTable.modeOf_releaseAll consistent, if_pos rfl]
        rfl
      · exact (service.table.held_walk transaction transaction _).trans (if_pos rfl)
    exact ⟨same, release_of_table same⟩
  allAgain transaction := by
    have same : (service.table.releaseAll transaction).2.releaseAll transaction =
        ([], (service.table.releaseAll transaction).2) :=
      LockTable.releaseAll_of_unlisted
        ((service.table.held_walk transaction transaction _).trans (if_pos rfl))
    exact ⟨same, releaseAll_of_table same⟩
  losesPage transaction page :=
    LockTable.loses_release run.realizes.consistent.inhabited transaction page
  losesAll transaction := LockTable.loses_releaseAll run.realizes.consistent transaction

/-- Two readers of one page, one of which holds another exclusively, and a parked request for each.
-/
def mixture : List LockCall :=
  [.ask ⟨1⟩ ⟨⟨7⟩, 0⟩ .shared 0, .ask ⟨2⟩ ⟨⟨7⟩, 0⟩ .shared 0, .ask ⟨1⟩ ⟨⟨7⟩, 1⟩ .exclusive 0,
    .ask ⟨3⟩ ⟨⟨7⟩, 0⟩ .exclusive 0, .ask ⟨2⟩ ⟨⟨7⟩, 1⟩ .shared 0]

/-- The last page first, the first page last, and the other reader stays. -/
theorem releases_agree_small :
    ∃ history service, Run (LockService.start WaitRange.standard) history service ∧
      history.map LockEvent.call = mixture ∧ service.ReleaseLaws ∧
      [(⟨⟨7⟩, 1⟩ : PageId), ⟨⟨7⟩, 0⟩].Perm (service.table.pagesOf ⟨1⟩) ∧
      ((service.release ⟨1⟩ ⟨⟨7⟩, 1⟩).release ⟨1⟩ ⟨⟨7⟩, 0⟩).table.holders ⟨⟨7⟩, 0⟩ = [⟨2⟩] ∧
      ((service.release ⟨1⟩ ⟨⟨7⟩, 1⟩).release ⟨1⟩ ⟨⟨7⟩, 0⟩).parked.map LockRequest.signalled =
        [true, true] := by
  have run := (@Run.start (LockService.start WaitRange.standard)).performAll mixture
  refine ⟨_, _, run, rfl, releases_agree run, ?_, ?_, ?_⟩
  · decide +kernel
  · decide +kernel
  · decide +kernel

end LockService

end RecordStore
