import RecordStore.Proofs.Lock.Index

set_option autoImplicit false

/-! Every queue has a channel of its own, so a release wakes exactly the requests parked on the
released pages. -/

namespace RecordStore

namespace LockTable

variable {table after : LockTable} {transaction : TransactionId} {page : PageId}

/-! ### A channel for each queue -/

structure Apart (table : LockTable) : Prop where
  issued : ∀ (page : PageId) (channel : Channel), table.channel? page = some channel →
    channel < table.nextChannel
  distinct : ∀ (page other : PageId) (channel : Channel), table.channel? page = some channel →
    table.channel? other = some channel → page = other

theorem Apart.of_same (apart : table.Apart) (queues : after.queues = table.queues)
    (next : after.nextChannel = table.nextChannel) : after.Apart := by
  have channels : ∀ page, after.channel? page = table.channel? page := by
    intro page
    rw [channel?, channel?, queues]
  constructor
  · intro page channel listening
    rw [channels] at listening
    rw [next]
    exact apart.issued page channel listening
  · intro page other channel listening also
    rw [channels] at listening also
    exact apart.distinct page other channel listening also

theorem Apart.empty : LockTable.empty.Apart := by
  have none : ∀ page, LockTable.empty.channel? page = none := by
    intro page
    change ((∅ : Std.ExtTreeMap PageId WaitQueue)[page]?).map WaitQueue.channel = Option.none
    rw [Std.ExtTreeMap.getElem?_empty]
    rfl
  constructor
  · intro page channel listening
    rw [none] at listening
    cases listening
  · intro page other channel listening
    rw [none] at listening
    cases listening

theorem enqueue_cases (table : LockTable) (page : PageId) :
    (table.channel? page = some (table.enqueue page).1 ∧
        (table.enqueue page).2.nextChannel = table.nextChannel) ∨
      ((table.enqueue page).1 = table.nextChannel ∧
        (table.enqueue page).2.nextChannel = table.nextChannel + 1) := by
  unfold enqueue channel?
  cases present : table.queues[page]? with
  | some queue => exact .inl ⟨rfl, rfl⟩
  | none => exact .inr ⟨rfl, rfl⟩

theorem Apart.enqueue (apart : table.Apart) (page : PageId) : (table.enqueue page).2.Apart := by
  have below : (table.enqueue page).1 < (table.enqueue page).2.nextChannel ∧
      table.nextChannel ≤ (table.enqueue page).2.nextChannel := by
    rcases table.enqueue_cases page with ⟨listening, same⟩ | ⟨given, later⟩
    · rw [same]
      exact ⟨apart.issued page _ listening, Nat.le_refl _⟩
    · rw [given, later]
      exact ⟨Nat.lt_succ_self _, Nat.le_succ _⟩
  -- The channel that is given out belongs to this page already or to none.
  have own : ∀ other, table.channel? other = some (table.enqueue page).1 → page = other := by
    intro other listening
    rcases table.enqueue_cases page with ⟨here, -⟩ | ⟨given, -⟩
    · exact apart.distinct page other _ here listening
    · rw [given] at listening
      exact absurd (apart.issued other _ listening) (Nat.lt_irrefl _)
  constructor
  · intro other channel listening
    rw [channel?_enqueue] at listening
    split at listening
    · rw [← Option.some.inj listening]
      exact below.1
    · exact Nat.lt_of_lt_of_le (apart.issued other channel listening) below.2
  · intro first second channel listening also
    rw [channel?_enqueue] at listening also
    split at listening
    · next here =>
        rw [← Option.some.inj listening] at also
        split at also
        · next there => exact here.symm.trans there
        · exact here.symm.trans (own second also)
    · split at also
      · next there =>
          rw [← Option.some.inj also] at listening
          exact (own first listening).symm.trans there
      · exact apart.distinct first second channel listening also

theorem nextChannel_dequeue (table : LockTable) (page : PageId) :
    (table.dequeue page).nextChannel = table.nextChannel := by
  unfold dequeue
  split
  · rfl
  · split <;> rfl

theorem channel?_of_dequeue {other : PageId} {channel : Channel}
    (listening : (table.dequeue page).channel? other = some channel) :
    table.channel? other = some channel := by
  unfold dequeue channel? at listening
  unfold channel?
  cases present : table.queues[page]? with
  | none =>
      rw [present] at listening
      exact listening
  | some queue =>
      simp only [present] at listening
      split at listening
      · rw [lookup_erase] at listening
        split at listening
        · cases listening
        · exact listening
      · rw [lookup_insert] at listening
        split at listening
        · next here =>
            rw [← here, present]
            exact listening
        · exact listening

theorem Apart.dequeue (apart : table.Apart) (page : PageId) : (table.dequeue page).Apart := by
  constructor
  · intro other channel listening
    rw [nextChannel_dequeue]
    exact apart.issued other channel (channel?_of_dequeue listening)
  · intro first second channel listening also
    exact apart.distinct first second channel (channel?_of_dequeue listening)
      (channel?_of_dequeue also)

theorem nextChannel_grant? {mode : LockMode} {granted : LockTable}
    (agreed : table.grant? transaction page mode = some granted) :
    granted.nextChannel = table.nextChannel := by
  rw [grant?, Option.map_eq_some_iff] at agreed
  obtain ⟨record, -, rfl⟩ := agreed
  rfl

theorem nextChannel_dropHolder (table : LockTable) (transaction : TransactionId)
    (page : PageId) : (table.dropHolder transaction page).2.nextChannel = table.nextChannel := by
  unfold dropHolder
  split
  · rfl
  · split
    · split <;> rfl
    · rfl

theorem nextChannel_release (table : LockTable) (transaction : TransactionId) (page : PageId) :
    (table.release transaction page).2.nextChannel = table.nextChannel := by
  have unindexed : (table.unindex transaction page).nextChannel = table.nextChannel := by
    unfold unindex
    split
    · rfl
    · dsimp only
      split <;> rfl
  exact (nextChannel_dropHolder _ transaction page).trans unindexed

theorem nextChannel_dropAll (table : LockTable) (transaction : TransactionId)
    (pages : List PageId) :
    (table.dropAll transaction pages).2.nextChannel = table.nextChannel := by
  induction pages generalizing table with
  | nil => rfl
  | cons page pages ih =>
      exact (ih (table.dropHolder transaction page).2).trans
        (table.nextChannel_dropHolder transaction page)

theorem Apart.grant? {mode : LockMode} {granted : LockTable} (apart : table.Apart)
    (agreed : table.grant? transaction page mode = some granted) : granted.Apart :=
  apart.of_same (queues_grant? agreed) (nextChannel_grant? agreed)

theorem Apart.release (apart : table.Apart) (transaction : TransactionId) (page : PageId) :
    (table.release transaction page).2.Apart :=
  apart.of_same (table.releases_release transaction page).queues
    (table.nextChannel_release transaction page)

theorem Apart.releaseAll (apart : table.Apart) (transaction : TransactionId) :
    (table.releaseAll transaction).2.Apart :=
  apart.of_same (table.releases_releaseAll transaction).queues
    (nextChannel_dropAll _ transaction _)

/-! ### The channels that are signalled -/

theorem holds_of_same {other : LockTable} {place : PageId}
    (same : other.records[place]? = table.records[place]?) (transaction : TransactionId) :
    other.holds transaction place = table.holds transaction place := by
  rw [holds, holds, same]

theorem dropHolder_signal (table : LockTable) (transaction : TransactionId) (page : PageId) :
    (table.dropHolder transaction page).1 =
      if table.holds transaction page then table.channel? page else none := by
  unfold dropHolder holds
  cases table.records[page]? with
  | none => rfl
  | some record =>
      simp only
      split <;> rfl

theorem mem_signal_dropHolder (table : LockTable) (transaction : TransactionId) (page : PageId)
    (channel : Channel) :
    channel ∈ (table.dropHolder transaction page).1.toList ↔
      table.holds transaction page = true ∧ table.channel? page = some channel := by
  rw [Option.mem_toList, dropHolder_signal]
  split
  · next holding => exact ⟨fun listening => ⟨holding, listening⟩, fun both => both.2⟩
  · next idle => simp [idle]

theorem mem_signal_release (table : LockTable) (transaction : TransactionId) (page : PageId)
    (channel : Channel) :
    channel ∈ (table.release transaction page).1.toList ↔
      table.holds transaction page = true ∧ table.channel? page = some channel := by
  have holding : (table.unindex transaction page).holds transaction page =
      table.holds transaction page :=
    holds_of_same (congrArg (·[page]?) (table.records_unindex transaction page)) transaction
  have listening : (table.unindex transaction page).channel? page = table.channel? page := by
    rw [channel?, channel?, queues_unindex]
  rw [LockTable.release, mem_signal_dropHolder, holding, listening]

/-- `dropAll` signals the channels of the visited pages that the transaction holds. -/
theorem mem_signals_dropAll (table : LockTable) (transaction : TransactionId)
    (pages : List PageId) (channel : Channel) :
    channel ∈ (table.dropAll transaction pages).1 ↔
      ∃ page ∈ pages, table.holds transaction page = true ∧
        table.channel? page = some channel := by
  induction pages generalizing table with
  | nil =>
      constructor
      · intro member
        cases member
      · rintro ⟨page, member, -⟩
        cases member
  | cons page pages ih =>
      have queues := table.queues_dropHolder transaction page
      have listening : ∀ other, (table.dropHolder transaction page).2.channel? other =
          table.channel? other := by
        intro other
        rw [channel?, channel?, queues]
      have left : ∀ other, (table.dropHolder transaction page).2.holds transaction other = true ↔
          other ≠ page ∧ table.holds transaction other = true := by
        intro other
        rw [holds_eq, modeOf_dropHolder, holds_eq]
        by_cases here : other = page
        · simp [here]
        · simp [here]
      have first : (table.dropAll transaction (page :: pages)).1 =
          (table.dropHolder transaction page).1.toList ++
            ((table.dropHolder transaction page).2.dropAll transaction pages).1 := rfl
      rw [first, List.mem_append, mem_signal_dropHolder, ih]
      simp only [listening, left, List.mem_cons]
      constructor
      · rintro (⟨holding, first⟩ | ⟨other, member, ⟨-, holding⟩, later⟩)
        · exact ⟨page, .inl rfl, holding, first⟩
        · exact ⟨other, .inr member, holding, later⟩
      · rintro ⟨other, rfl | member, holding, found⟩
        · exact .inl ⟨holding, found⟩
        · by_cases here : other = page
          · subst here
            exact .inl ⟨holding, found⟩
          · exact .inr ⟨other, member, ⟨here, holding⟩, found⟩

theorem mem_signals_releaseAll (consistent : table.Consistent) (transaction : TransactionId)
    (channel : Channel) :
    channel ∈ (table.releaseAll transaction).1 ↔
      ∃ page, table.holds transaction page = true ∧ table.channel? page = some channel := by
  change channel ∈ (LockTable.dropAll { table with held := table.held.erase transaction }
    transaction (table.pagesOf transaction)).1 ↔ _
  rw [mem_signals_dropAll]
  constructor
  · rintro ⟨page, -, holding, found⟩
    exact ⟨page, holding, found⟩
  · rintro ⟨page, holding, found⟩
    refine ⟨page, ?_, holding, found⟩
    rw [mem_pagesOf_iff consistent, ← holds_eq]
    exact holding

end LockTable

/-! ### The requests that are woken -/

def LockRequest.wake (freed : PageId → Bool) (request : LockRequest) : LockRequest :=
  if freed request.page then { request with signalled := true } else request

namespace LockService

variable {service : LockService} {request : LockRequest}

structure Tidy (service : LockService) : Prop where
  consistent : service.table.Consistent
  queued : service.Queued
  apart : service.table.Apart

namespace Tidy

theorem start (range : WaitRange) : (LockService.start range).Tidy :=
  ⟨LockTable.Consistent.empty, Queued.start range, LockTable.Apart.empty⟩

/-- `signal` wakes the requests parked for the pages of these channels. -/
theorem signal_eq (tidy : service.Tidy) {channels : List Channel} {table : LockTable}
    {freed : PageId → Bool}
    (signalled : ∀ channel, channel ∈ channels ↔
      ∃ page, freed page = true ∧ service.table.channel? page = some channel) :
    ({ service with table := table }.signal channels).parked =
      service.parked.map (LockRequest.wake freed) := by
  refine List.map_congr_left ?_
  intro request parked
  have listening := tidy.queued.listening request parked
  have same : channels.contains request.channel = freed request.page := by
    rw [Bool.eq_iff_iff, List.contains_iff_mem, signalled]
    constructor
    · rintro ⟨page, free, found⟩
      rwa [tidy.apart.distinct request.page page _ listening found]
    · intro free
      exact ⟨request.page, free, listening⟩
  rw [LockRequest.wake, same]

theorem parked_release (tidy : service.Tidy) (transaction : TransactionId) (page : PageId) :
    (service.release transaction page).parked =
      service.parked.map
        (LockRequest.wake fun place => decide (place = page) &&
          service.table.holds transaction page) := by
  have signalled : ∀ channel, channel ∈ (service.table.release transaction page).1.toList ↔
      ∃ place, (decide (place = page) && service.table.holds transaction page) = true ∧
        service.table.channel? place = some channel := by
    intro channel
    rw [LockTable.mem_signal_release]
    simp only [Bool.and_eq_true, decide_eq_true_eq]
    constructor
    · rintro ⟨holding, found⟩
      exact ⟨page, ⟨rfl, holding⟩, found⟩
    · rintro ⟨place, ⟨rfl, holding⟩, found⟩
      exact ⟨holding, found⟩
  exact tidy.signal_eq signalled

theorem parked_releaseAll (tidy : service.Tidy) (transaction : TransactionId) :
    (service.releaseAll transaction).parked =
      service.parked.map (LockRequest.wake (service.table.holds transaction)) :=
  tidy.signal_eq (LockTable.mem_signals_releaseAll tidy.consistent transaction)

/-! ### Every call keeps the channels apart -/

theorem apart_ask (apart : service.table.Apart) (transaction : TransactionId) (page : PageId)
    (mode : LockMode) (sample : Nat) :
    (service.ask transaction page mode sample).2.table.Apart := by
  unfold ask
  cases granted : service.table.grant? transaction page mode with
  | some table => exact apart.grant? granted
  | none =>
      cases service.range.draw sample with
      | error fault => exact apart
      | ok bound => exact apart.enqueue page

theorem apart_expire (apart : service.table.Apart) (request : LockRequest) :
    (service.expire request).2.table.Apart := by
  unfold expire
  cases granted : service.table.grant? request.transaction request.page request.mode with
  | some table => exact (apart.grant? granted).dequeue request.page
  | none => exact apart.dequeue request.page

theorem apart_retry (apart : service.table.Apart) (request : LockRequest) :
    (service.retry request).2.table.Apart := by
  unfold retry
  cases granted : service.table.grant? request.transaction request.page request.mode with
  | some table => exact (apart.grant? granted).dequeue request.page
  | none => exact apart

theorem apart_perform (apart : service.table.Apart) (call : LockCall) :
    (service.perform call).2.table.Apart := by
  cases call with
  | ask transaction page mode sample => exact apart_ask apart transaction page mode sample
  | resume ticket =>
      change (service.resume ticket).2.table.Apart
      rcases service.resume_cases ticket with same | ⟨request, -, -, expired | retried⟩
      · rw [same]
        exact apart
      · rw [expired]
        exact apart_expire apart request
      · rw [retried]
        exact apart_retry apart request
  | acquire transaction page mode sample =>
      change (service.acquire transaction page mode sample).2.table.Apart
      have asked := apart_ask apart transaction page mode sample
      rcases service.acquire_after transaction page mode sample with same | ⟨request, -, later⟩
      · rw [same]
        exact asked
      · rw [later]
        have awaited : ((service.ask transaction page mode sample).2.await request).table.Apart :=
          asked
        exact apart_expire awaited request
  | release transaction page => exact apart.release transaction page
  | releaseAll transaction => exact apart.releaseAll transaction
  | pass time => exact apart

theorem perform (tidy : service.Tidy) (call : LockCall) : (service.perform call).2.Tidy where
  consistent := tidy.consistent.rewrites (service.rewrites_perform call)
  queued := tidy.queued.perform call
  apart := apart_perform tidy.apart call

end Tidy

variable {start : LockService} {history : List LockEvent}

theorem Run.tidy (run : Run start history service) (tidy : start.Tidy) : service.Tidy := by
  induction run with
  | start => exact tidy
  | step call earlier ih => exact ih.perform call

end LockService

end RecordStore
