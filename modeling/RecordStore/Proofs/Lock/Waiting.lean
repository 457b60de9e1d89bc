import RecordStore.Proofs.Lock.Holdings
import RecordStore.Proofs.Map

set_option autoImplicit false

/-! Wake-ups are not lost. Only a release makes a parked request grantable, and it signals the
channel of the request. The channel of a queue is kept as long as requests are parked there, and the
queue counts them. -/

namespace RecordStore

namespace LockTable

variable {table : LockTable} {transaction : TransactionId} {page : PageId}

/-! ### The queue of a page -/

def waiters (table : LockTable) (page : PageId) : Nat :=
  (table.queues[page]?).elim 0 WaitQueue.count

def channel? (table : LockTable) (page : PageId) : Option Channel :=
  (table.queues[page]?).map WaitQueue.channel

def Attended (table : LockTable) : Prop :=
  ∀ (page : PageId) (queue : WaitQueue), table.queues[page]? = some queue → 0 < queue.count

theorem waiters_enqueue (table : LockTable) (page other : PageId) :
    (table.enqueue page).2.waiters other =
      if page = other then table.waiters page + 1 else table.waiters other := by
  unfold enqueue waiters
  cases present : table.queues[page]? with
  | some queue =>
      simp only [lookup_insert]
      split <;> rfl
  | none =>
      simp only [lookup_insert]
      split <;> rfl

theorem channel?_enqueue (table : LockTable) (page other : PageId) :
    (table.enqueue page).2.channel? other =
      if page = other then some (table.enqueue page).1 else table.channel? other := by
  unfold enqueue channel?
  cases present : table.queues[page]? with
  | some queue =>
      simp only [lookup_insert]
      split <;> rfl
  | none =>
      simp only [lookup_insert]
      split <;> rfl

theorem enqueue_channel {channel : Channel} (listening : table.channel? page = some channel) :
    (table.enqueue page).1 = channel := by
  unfold channel? at listening
  unfold enqueue
  cases present : table.queues[page]? with
  | some queue =>
      rw [present] at listening
      exact Option.some.inj listening
  | none =>
      rw [present] at listening
      cases listening

theorem Attended.enqueue (attended : table.Attended) (page : PageId) :
    (table.enqueue page).2.Attended := by
  intro other queue found
  unfold LockTable.enqueue at found
  cases present : table.queues[page]? with
  | some former =>
      simp only [present, lookup_insert] at found
      split at found
      · rw [← Option.some.inj found]
        exact Nat.succ_pos _
      · exact attended other queue found
  | none =>
      simp only [present, lookup_insert] at found
      split at found
      · rw [← Option.some.inj found]
        exact Nat.succ_pos _
      · exact attended other queue found

theorem waiters_dequeue (table : LockTable) (page other : PageId) :
    (table.dequeue page).waiters other =
      if page = other then table.waiters page - 1 else table.waiters other := by
  unfold dequeue waiters
  cases present : table.queues[page]? with
  | none =>
      by_cases same : page = other
      · rw [if_pos same, ← same, present]
        rfl
      · rw [if_neg same]
  | some queue =>
      by_cases last : queue.count ≤ 1
      · simp only [if_pos last, lookup_erase]
        split
        · exact (Nat.sub_eq_zero_of_le last).symm
        · rfl
      · simp only [if_neg last, lookup_insert]
        split <;> rfl

theorem channel?_dequeue (page other : PageId) (left : page = other → 2 ≤ table.waiters page) :
    (table.dequeue page).channel? other = table.channel? other := by
  unfold dequeue channel?
  cases present : table.queues[page]? with
  | none => rfl
  | some queue =>
      by_cases last : queue.count ≤ 1
      · simp only [if_pos last, lookup_erase]
        split
        · next same =>
            have several := left same
            rw [waiters, present] at several
            exact absurd (Nat.le_trans several last) (by decide)
        · rfl
      · simp only [if_neg last, lookup_insert]
        split
        · next same =>
            rw [← same, present]
            rfl
        · rfl

theorem Attended.dequeue (attended : table.Attended) (page : PageId) :
    (table.dequeue page).Attended := by
  intro other queue found
  unfold LockTable.dequeue at found
  cases present : table.queues[page]? with
  | none =>
      rw [present] at found
      exact attended other queue found
  | some former =>
      simp only [present] at found
      split at found
      · rw [lookup_erase] at found
        split at found
        · cases found
        · exact attended other queue found
      · next several =>
          rw [lookup_insert] at found
          split at found
          · rw [← Option.some.inj found]
            exact Nat.sub_pos_of_lt (Nat.lt_of_not_le several)
          · exact attended other queue found

/-! ### Releasing -/

theorem grantable_of_same {other : LockTable} (same : other.records[page]? = table.records[page]?)
    (transaction : TransactionId) (mode : LockMode) :
    other.grantable transaction page mode = table.grantable transaction page mode := by
  rw [grantable, grantable, grantedRecord?, grantedRecord?, same]

structure Releases (before : LockTable) (signals : List Channel) (after : LockTable) : Prop where
  queues : after.queues = before.queues
  enables : ∀ transaction page mode channel, before.channel? page = some channel →
    before.grantable transaction page mode = false →
    after.grantable transaction page mode = true → channel ∈ signals

theorem Releases.of_same {after : LockTable} (signals : List Channel)
    (queues : after.queues = table.queues) (records : after.records = table.records) :
    table.Releases signals after := by
  constructor
  · exact queues
  · intro transaction page mode channel listening barred free
    rw [grantable_of_same (congrArg (·[page]?) records), barred] at free
    cases free

theorem Releases.trans {middle after : LockTable} {earlier later : List Channel}
    (first : table.Releases earlier middle) (second : middle.Releases later after) :
    table.Releases (earlier ++ later) after := by
  constructor
  · exact second.queues.trans first.queues
  · intro transaction page mode channel listening barred free
    have still : middle.channel? page = some channel := by
      rw [channel?, first.queues]
      exact listening
    cases between : middle.grantable transaction page mode with
    | true =>
        exact List.mem_append_left later
          (first.enables transaction page mode channel listening barred between)
    | false =>
        exact List.mem_append_right earlier
          (second.enables transaction page mode channel still between free)

theorem queues_dropHolder (table : LockTable) (transaction : TransactionId) (page : PageId) :
    (table.dropHolder transaction page).2.queues = table.queues := by
  unfold dropHolder
  split
  · rfl
  · split
    · split <;> rfl
    · rfl

theorem records_dropHolder_other {place : PageId} (different : page ≠ place) :
    (table.dropHolder transaction page).2.records[place]? = table.records[place]? := by
  unfold dropHolder
  split
  · rfl
  · split
    · split
      · rw [lookup_insert, if_neg different]
      · rw [lookup_erase, if_neg different]
    · rfl

/-- `dropHolder` signals the channel of the page, or leaves the table as it is. -/
theorem dropHolder_signals (table : LockTable) (transaction : TransactionId) (page : PageId) :
    (table.dropHolder transaction page).1 = table.channel? page ∨
      (table.dropHolder transaction page).2 = table := by
  unfold dropHolder
  split
  · exact .inr rfl
  · split
    · exact .inl rfl
    · exact .inr rfl

theorem releases_dropHolder (table : LockTable) (transaction : TransactionId) (page : PageId) :
    table.Releases (table.dropHolder transaction page).1.toList
      (table.dropHolder transaction page).2 := by
  constructor
  · exact queues_dropHolder table transaction page
  · intro other place mode channel listening barred free
    by_cases here : page = place
    · rcases dropHolder_signals table transaction page with signalled | same
      · rw [signalled, here, listening]
        exact List.mem_singleton_self channel
      · rw [same, barred] at free
        cases free
    · rw [grantable_of_same (records_dropHolder_other here), barred] at free
      cases free

theorem queues_unindex (table : LockTable) (transaction : TransactionId) (page : PageId) :
    (table.unindex transaction page).queues = table.queues := by
  unfold unindex
  split
  · rfl
  · dsimp only
    split <;> rfl

theorem releases_release (table : LockTable) (transaction : TransactionId) (page : PageId) :
    table.Releases (table.release transaction page).1.toList (table.release transaction page).2 := by
  have unindexed : table.Releases [] (table.unindex transaction page) :=
    Releases.of_same [] (table.queues_unindex transaction page)
      (table.records_unindex transaction page)
  exact unindexed.trans (releases_dropHolder _ transaction page)

theorem releases_dropAll (table : LockTable) (transaction : TransactionId) (pages : List PageId) :
    table.Releases (table.dropAll transaction pages).1 (table.dropAll transaction pages).2 := by
  induction pages generalizing table with
  | nil => exact Releases.of_same [] rfl rfl
  | cons page pages ih =>
      exact (table.releases_dropHolder transaction page).trans
        (ih (table.dropHolder transaction page).2)

theorem releases_releaseAll (table : LockTable) (transaction : TransactionId) :
    table.Releases (table.releaseAll transaction).1 (table.releaseAll transaction).2 := by
  have unindexed : table.Releases [] { table with held := table.held.erase transaction } :=
    Releases.of_same [] rfl rfl
  exact unindexed.trans (releases_dropAll _ transaction _)

/-! ### Holding more -/

theorem grantable_iff (consistent : table.Consistent) (transaction : TransactionId)
    (page : PageId) (mode : LockMode) :
    table.grantable transaction page mode = true ↔
      ∀ other, other ≠ transaction → ¬ LockMode.bars (table.modeOf other page) mode := by
  rw [← grant?_isSome_iff consistent, grantable, grant?, Option.isSome_map]

theorem not_grantable_of_grant? {mode : LockMode}
    (refused : table.grant? transaction page mode = none) :
    table.grantable transaction page mode = false := by
  rw [grant?, Option.map_eq_none_iff] at refused
  rw [grantable, refused]
  rfl

theorem queues_grant? {mode : LockMode} {granted : LockTable}
    (agreed : table.grant? transaction page mode = some granted) :
    granted.queues = table.queues := by
  rw [grant?, Option.map_eq_some_iff] at agreed
  obtain ⟨record, -, rfl⟩ := agreed
  rfl

end LockTable

namespace LockService

variable {service after : LockService} {request : LockRequest}

def grantable (service : LockService) (request : LockRequest) : Bool :=
  service.table.grantable request.transaction request.page request.mode

/-- A request that is grantable after more locks were taken was grantable before. -/
theorem Strengthens.grantable {transaction : TransactionId}
    (stronger : Strengthens transaction service after) (consistent : service.table.Consistent)
    (free : after.grantable request = true) : service.grantable request = true := by
  rw [LockService.grantable, LockTable.grantable_iff (stronger.consistent consistent)] at free
  rw [LockService.grantable, LockTable.grantable_iff consistent]
  intro other different bars
  apply free other different
  change LockMode.bars (after.modeOf other request.page) request.mode
  change LockMode.bars (service.modeOf other request.page) request.mode at bars
  by_cases itself : other = transaction
  · subst itself
    rcases bars with exclusive | ⟨shared, writing⟩
    · exact .inl (stronger.exclusive request.page exclusive)
    · have held := stronger.held request.page (by rw [shared]; rfl)
      obtain ⟨mode, holding⟩ := Option.isSome_iff_exists.mp held
      cases mode with
      | shared => exact .inr ⟨holding, writing⟩
      | exclusive => exact .inl holding
  · rwa [stronger.others other request.page itself]

/-! ### The bookkeeping of parked requests -/

def waiting (service : LockService) (page : PageId) : Nat :=
  service.parked.countP fun request => request.page = page

structure Queued (service : LockService) : Prop where
  ticketed : ∀ request ∈ service.parked, request.ticket < service.nextTicket
  distinct : service.parked.Pairwise fun left right => left.ticket ≠ right.ticket
  attended : service.table.Attended
  counted : ∀ page, service.table.waiters page = service.waiting page
  listening : ∀ request ∈ service.parked, service.table.channel? request.page =
    some request.channel

theorem parked_of_ask (service : LockService) (transaction : TransactionId) (page : PageId)
    (mode : LockMode) (sample : Nat) (request : LockRequest)
    (waits : (service.ask transaction page mode sample).1 = .ok (.parked request)) :
    request ∈ (service.ask transaction page mode sample).2.parked := by
  revert waits
  unfold ask
  cases service.table.grant? transaction page mode with
  | some table =>
      intro waits
      cases waits
  | none =>
      cases service.range.draw sample with
      | error fault =>
          intro waits
          cases waits
      | ok bound =>
          intro waits
          cases waits
          exact List.mem_append_right _ (List.mem_singleton_self _)

/-- `acquire` is `ask`, followed by `expire` if the request was parked. -/
theorem acquire_after (service : LockService) (transaction : TransactionId) (page : PageId)
    (mode : LockMode) (sample : Nat) :
    (service.acquire transaction page mode sample).2 =
        (service.ask transaction page mode sample).2 ∨
      ∃ request, (service.ask transaction page mode sample).1 = .ok (.parked request) ∧
        (service.acquire transaction page mode sample).2 =
          (((service.ask transaction page mode sample).2.await request).expire request).2 := by
  unfold acquire
  rcases service.ask transaction page mode sample with ⟨fault | granted | request, later⟩
  · exact .inl rfl
  · exact .inl rfl
  · refine .inr ⟨request, rfl, ?_⟩
    rcases ended : (later.await request).expire request with ⟨expired | granted, final⟩
    · simp only [ended]
    · simp only [ended]

theorem mem_of_find? {ticket : Ticket} (found : service.find? ticket = some request) :
    request ∈ service.parked ∧ request.ticket = ticket := by
  unfold find? at found
  constructor
  · exact List.mem_of_find?_eq_some found
  · have same := List.find?_some found
    exact eq_of_beq same

/-- A resumed request expires, is granted, or stays parked. -/
theorem resume_cases (service : LockService) (ticket : Ticket) :
    (service.resume ticket).2 = service ∨
      ∃ request, request ∈ service.parked ∧ request.ticket = ticket ∧
        ((service.resume ticket).2 = (service.expire request).2 ∨
          (service.resume ticket).2 = (service.retry request).2) := by
  unfold resume
  cases found : service.find? ticket with
  | none => exact .inl rfl
  | some request =>
      obtain ⟨parked, same⟩ := mem_of_find? found
      refine .inr ⟨request, parked, same, ?_⟩
      by_cases ended : request.deadline ≤ service.clock
      · apply Or.inl
        simp only [if_pos ended]
      · apply Or.inr
        simp only [if_neg ended]
        rcases service.retry request with ⟨granted | refused, after⟩
        · rfl
        · rfl

namespace Queued

theorem start (range : WaitRange) : (LockService.start range).Queued where
  ticketed := by
    intro request parked
    cases parked
  distinct := .nil
  attended := by
    intro page queue found
    cases Std.ExtTreeMap.getElem?_empty.symm.trans found
  counted page := by
    rw [LockTable.waiters]
    change (((∅ : Std.ExtTreeMap PageId WaitQueue)[page]?).elim 0 WaitQueue.count) = 0
    rw [Std.ExtTreeMap.getElem?_empty]
    rfl
  listening := by
    intro request parked
    cases parked

theorem split (queued : service.Queued) (parked : request ∈ service.parked) :
    ∃ left right, service.parked = left ++ request :: right ∧
      ∀ other ∈ left ++ right, other.ticket ≠ request.ticket := by
  obtain ⟨left, right, parts⟩ := List.append_of_mem parked
  refine ⟨left, right, parts, ?_⟩
  have distinct := queued.distinct
  rw [parts, List.pairwise_append, List.pairwise_cons] at distinct
  obtain ⟨-, ⟨later, -⟩, earlier⟩ := distinct
  intro other member
  rcases List.mem_append.mp member with before | behind
  · exact earlier other before request List.mem_cons_self
  · exact (later other behind).symm

theorem unique {other : LockRequest} (queued : service.Queued) (parked : request ∈ service.parked)
    (also : other ∈ service.parked) (same : other.ticket = request.ticket) : other = request := by
  obtain ⟨left, right, parts, different⟩ := queued.split parked
  rw [parts, List.mem_append, List.mem_cons] at also
  rcases also with before | itself | behind
  · exact absurd same (different other (List.mem_append_left right before))
  · exact itself
  · exact absurd same (different other (List.mem_append_right left behind))

theorem relabel (queued : service.Queued) (queues : after.table.queues = service.table.queues)
    (tickets : after.nextTicket = service.nextTicket) (label : LockRequest → LockRequest)
    (parked : after.parked = service.parked.map label)
    (same : ∀ request, (label request).ticket = request.ticket ∧
      (label request).page = request.page ∧ (label request).channel = request.channel) :
    after.Queued where
  ticketed := by
    intro request member
    rw [parked] at member
    obtain ⟨original, before, rfl⟩ := List.mem_map.mp member
    rw [(same original).1, tickets]
    exact queued.ticketed original before
  distinct := by
    rw [parked, List.pairwise_map]
    refine queued.distinct.imp ?_
    intro left right different
    rwa [(same left).1, (same right).1]
  attended := by
    intro page queue found
    rw [queues] at found
    exact queued.attended page queue found
  counted page := by
    rw [LockTable.waiters, queues, waiting, parked, List.countP_map]
    refine (queued.counted page).trans (List.countP_congr ?_)
    intro request _
    simp only [Function.comp_apply, (same request).2.1]
  listening := by
    intro request member
    rw [parked] at member
    obtain ⟨original, before, rfl⟩ := List.mem_map.mp member
    rw [(same original).2.1, (same original).2.2, LockTable.channel?, queues]
    exact queued.listening original before

theorem of_same (queued : service.Queued) (queues : after.table.queues = service.table.queues)
    (tickets : after.nextTicket = service.nextTicket) (parked : after.parked = service.parked) :
    after.Queued :=
  queued.relabel queues tickets id (parked.trans (List.map_id _).symm) fun _ => ⟨rfl, rfl, rfl⟩

theorem park (queued : service.Queued) (transaction : TransactionId) (page : PageId)
    (mode : LockMode) (bound deadline : Nat) :
    Queued { service with
      table := (service.table.enqueue page).2
      parked := service.parked ++ [⟨service.nextTicket, transaction, page, mode,
        (service.table.enqueue page).1, bound, deadline, false⟩]
      nextTicket := service.nextTicket + 1 } where
  ticketed := by
    intro request member
    rcases List.mem_append.mp member with before | last
    · exact Nat.lt_succ_of_lt (queued.ticketed request before)
    · rw [List.mem_singleton.mp last]
      exact Nat.lt_succ_self _
  distinct := by
    refine List.pairwise_append.mpr ⟨queued.distinct, List.pairwise_singleton _ _, ?_⟩
    intro request before other last
    rw [List.mem_singleton.mp last]
    exact Nat.ne_of_lt (queued.ticketed request before)
  attended := queued.attended.enqueue page
  counted place := by
    have former := queued.counted place
    rw [waiting] at former
    rw [waiting, List.countP_append, List.countP_singleton, LockTable.waiters_enqueue]
    by_cases here : page = place
    · subst here
      rw [former]
      simp
    · rw [if_neg here, former]
      simp [here]
  listening := by
    intro request member
    rw [LockTable.channel?_enqueue]
    rcases List.mem_append.mp member with before | last
    · have listening := queued.listening request before
      split
      · next here =>
          subst here
          rw [LockTable.enqueue_channel listening]
      · exact listening
    · rw [List.mem_singleton.mp last, if_pos rfl]

theorem unpark {table : LockTable} (queued : service.Queued) (parked : request ∈ service.parked)
    (queues : table.queues = service.table.queues) : (service.unpark request table).Queued := by
  obtain ⟨left, right, parts, different⟩ := queued.split parked
  have remaining : (service.unpark request table).parked = left ++ right := by
    have keeps : ∀ requests : List LockRequest, (∀ other ∈ requests, other ∈ left ++ right) →
        requests.filter (fun other => other.ticket != request.ticket) = requests := by
      intro requests among
      apply List.filter_eq_self.mpr
      intro other member
      exact bne_iff_ne.mpr (different other (among other member))
    change service.parked.filter _ = _
    rw [parts, List.filter_append, List.filter_cons,
      keeps left fun _ => List.mem_append_left right,
      keeps right fun _ => List.mem_append_right left, bne_self_eq_false]
    rfl
  have among : ∀ other ∈ left ++ right, other ∈ service.parked := by
    intro other member
    rw [parts, List.mem_append, List.mem_cons]
    rcases List.mem_append.mp member with before | behind
    · exact .inl before
    · exact .inr (.inr behind)
  have waiters : ∀ page, table.waiters page =
      (left ++ right).countP (fun other => other.page = page) +
        if request.page = page then 1 else 0 := by
    intro page
    rw [LockTable.waiters, queues]
    refine (queued.counted page).trans ?_
    rw [waiting, parts, List.countP_append, List.countP_append, List.countP_cons]
    simp only [decide_eq_true_eq]
    exact (Nat.add_assoc _ _ _).symm
  constructor
  · intro other member
    rw [remaining] at member
    exact queued.ticketed other (among other member)
  · exact queued.distinct.filter _
  · apply LockTable.Attended.dequeue
    intro page queue found
    rw [queues] at found
    exact queued.attended page queue found
  · intro page
    rw [waiting, remaining]
    refine (table.waiters_dequeue request.page page).trans ?_
    rw [waiters, waiters]
    split
    · next here =>
        rw [here, if_pos rfl]
        rfl
    · rfl
  · intro other member
    rw [remaining] at member
    refine (LockTable.channel?_dequeue request.page other.page ?_).trans ?_
    · intro here
      rw [waiters, if_pos rfl]
      apply Nat.succ_le_succ
      apply List.countP_pos_iff.mpr
      exact ⟨other, member, decide_eq_true here.symm⟩
    · rw [LockTable.channel?, queues]
      exact queued.listening other (among other member)

theorem ask (queued : service.Queued) (transaction : TransactionId) (page : PageId)
    (mode : LockMode) (sample : Nat) : (service.ask transaction page mode sample).2.Queued := by
  unfold LockService.ask
  cases granted : service.table.grant? transaction page mode with
  | some table => exact queued.of_same (LockTable.queues_grant? granted) rfl rfl
  | none =>
      cases service.range.draw sample with
      | error fault => exact queued
      | ok bound => exact queued.park transaction page mode bound (service.clock + bound)

theorem expire (queued : service.Queued) (parked : request ∈ service.parked) :
    (service.expire request).2.Queued := by
  unfold LockService.expire
  cases granted : service.table.grant? request.transaction request.page request.mode with
  | some table => exact queued.unpark parked (LockTable.queues_grant? granted)
  | none => exact queued.unpark parked rfl

theorem retry (queued : service.Queued) (parked : request ∈ service.parked) :
    (service.retry request).2.Queued := by
  unfold LockService.retry
  cases granted : service.table.grant? request.transaction request.page request.mode with
  | some table => exact queued.unpark parked (LockTable.queues_grant? granted)
  | none =>
      apply queued.relabel
      · rfl
      · rfl
      · rfl
      · intro other
        split <;> exact ⟨rfl, rfl, rfl⟩

theorem resume (queued : service.Queued) (ticket : Ticket) :
    (service.resume ticket).2.Queued := by
  rcases service.resume_cases ticket with same | ⟨request, parked, -, given | tried⟩
  · rw [same]
    exact queued
  · rw [given]
    exact queued.expire parked
  · rw [tried]
    exact queued.retry parked

theorem acquire (queued : service.Queued) (transaction : TransactionId) (page : PageId)
    (mode : LockMode) (sample : Nat) :
    (service.acquire transaction page mode sample).2.Queued := by
  have asked := queued.ask transaction page mode sample
  rcases service.acquire_after transaction page mode sample with same | ⟨request, waits, later⟩
  · rw [same]
    exact asked
  · rw [later]
    have awaited : ((service.ask transaction page mode sample).2.await request).Queued :=
      asked.of_same rfl rfl rfl
    exact awaited.expire (service.parked_of_ask transaction page mode sample request waits)

theorem signal {signals : List Channel} {table : LockTable} (queued : service.Queued)
    (releases : service.table.Releases signals table) :
    ({ service with table := table }.signal signals).Queued := by
  apply queued.relabel
  · exact releases.queues
  · rfl
  · rfl
  · intro request
    split <;> exact ⟨rfl, rfl, rfl⟩

theorem perform (queued : service.Queued) (call : LockCall) :
    (service.perform call).2.Queued := by
  cases call with
  | ask transaction page mode sample => exact queued.ask transaction page mode sample
  | resume ticket => exact queued.resume ticket
  | acquire transaction page mode sample => exact queued.acquire transaction page mode sample
  | release transaction page =>
      exact queued.signal (service.table.releases_release transaction page)
  | releaseAll transaction => exact queued.signal (service.table.releases_releaseAll transaction)
  | pass time => exact queued.of_same rfl rfl rfl

end Queued

/-! ### Calls that release nothing -/

theorem ask_strengthens (service : LockService) (transaction : TransactionId) (page : PageId)
    (mode : LockMode) (sample : Nat) :
    Strengthens transaction service (service.ask transaction page mode sample).2 := by
  unfold ask
  cases granted : service.table.grant? transaction page mode with
  | some table => exact strengthens_of_grant? granted
  | none =>
      cases service.range.draw sample with
      | error fault => exact .refl transaction service
      | ok bound =>
          obtain ⟨records, held⟩ := service.table.records_enqueue page
          exact .of_same records held

theorem unpark_strengthens (service : LockService) (transaction : TransactionId)
    (request : LockRequest) (table : LockTable) :
    Strengthens transaction { service with table := table } (service.unpark request table) := by
  obtain ⟨records, held⟩ := table.records_dequeue request.page
  exact .of_same records held

theorem expire_strengthens (service : LockService) (request : LockRequest) :
    Strengthens request.transaction service (service.expire request).2 := by
  unfold expire
  cases granted : service.table.grant? request.transaction request.page request.mode with
  | some table =>
      exact (strengthens_of_grant? granted).trans (service.unpark_strengthens _ request table)
  | none => exact service.unpark_strengthens _ request service.table

theorem retry_strengthens (service : LockService) (request : LockRequest) :
    Strengthens request.transaction service (service.retry request).2 := by
  unfold retry
  cases granted : service.table.grant? request.transaction request.page request.mode with
  | some table =>
      exact (strengthens_of_grant? granted).trans (service.unpark_strengthens _ request table)
  | none => exact .of_same rfl rfl

end LockService

def LockCall.LetsGo : LockCall → Prop
  | .release _ _ => True
  | .releaseAll _ => True
  | _ => False

namespace LockService

variable {service after : LockService} {request : LockRequest}

theorem perform_strengthens (service : LockService) (call : LockCall) (keeps : ¬ call.LetsGo) :
    ∃ transaction, Strengthens transaction service (service.perform call).2 := by
  cases call with
  | ask transaction page mode sample =>
      exact ⟨transaction, service.ask_strengthens transaction page mode sample⟩
  | resume ticket =>
      change ∃ transaction, Strengthens transaction service (service.resume ticket).2
      rcases service.resume_cases ticket with same | ⟨request, -, -, given | tried⟩
      · rw [same]
        exact ⟨⟨0⟩, .refl _ service⟩
      · rw [given]
        exact ⟨request.transaction, service.expire_strengthens request⟩
      · rw [tried]
        exact ⟨request.transaction, service.retry_strengthens request⟩
  | acquire transaction page mode sample =>
      exact ⟨transaction, service.acquire_strengthens transaction page mode sample⟩
  | release transaction page => exact absurd trivial keeps
  | releaseAll transaction => exact absurd trivial keeps
  | pass time => exact ⟨⟨0⟩, .of_same rfl rfl⟩

/-! ### Requests that are woken -/

def signals (service : LockService) : LockCall → List Channel
  | .release transaction page => (service.table.release transaction page).1.toList
  | .releaseAll transaction => (service.table.releaseAll transaction).1
  | _ => []

theorem mem_signal {channels : List Channel} (parked : request ∈ service.parked)
    (signalled : request.channel ∈ channels) :
    { request with signalled := true } ∈ (service.signal channels).parked := by
  refine List.mem_map.mpr ⟨request, parked, ?_⟩
  rw [if_pos (List.contains_iff_mem.mpr signalled)]

theorem Queued.signal_wakes {channels : List Channel} {table : LockTable} (queued : service.Queued)
    (releases : service.table.Releases channels table) (parked : request ∈ service.parked)
    (barred : service.grantable request = false)
    (free : table.grantable request.transaction request.page request.mode = true) :
    request.channel ∈ channels ∧
      { request with signalled := true } ∈
        ({ service with table := table }.signal channels).parked := by
  have signalled := releases.enables request.transaction request.page request.mode request.channel
    (queued.listening request parked) barred free
  exact ⟨signalled, mem_signal parked signalled⟩

/-- Only a release makes a parked request grantable, and it signals the channel of that request. -/
theorem Queued.wakes (queued : service.Queued) (consistent : service.table.Consistent)
    {call : LockCall} (parked : request ∈ service.parked)
    (barred : service.grantable request = false)
    (free : (service.perform call).2.grantable request = true) :
    call.LetsGo ∧ request.channel ∈ service.signals call ∧
      { request with signalled := true } ∈ (service.perform call).2.parked := by
  have letsGo : call.LetsGo := by
    apply Classical.byContradiction
    intro keeps
    obtain ⟨transaction, stronger⟩ := service.perform_strengthens call keeps
    rw [stronger.grantable consistent free] at barred
    cases barred
  refine ⟨letsGo, ?_⟩
  cases call with
  | release transaction page =>
      exact queued.signal_wakes (service.table.releases_release transaction page) parked barred free
  | releaseAll transaction =>
      exact queued.signal_wakes (service.table.releases_releaseAll transaction) parked barred free
  | ask => cases letsGo
  | resume => cases letsGo
  | acquire => cases letsGo
  | pass => cases letsGo

/-- Every parked request that is grantable has been signalled. -/
def Alert (service : LockService) : Prop :=
  ∀ request ∈ service.parked, request.signalled = false → service.grantable request = false

namespace Alert

theorem of_strengthens {transaction : TransactionId} (alert : service.Alert)
    (consistent : service.table.Consistent) (stronger : Strengthens transaction service after)
    (origin : ∀ request ∈ after.parked, request.signalled = false →
      request ∈ service.parked ∨ after.grantable request = false) : after.Alert := by
  intro request parked quiet
  rcases origin request parked quiet with before | barred
  · have barred := alert request before quiet
    cases free : after.grantable request with
    | false => rfl
    | true =>
        rw [stronger.grantable consistent free] at barred
        cases barred
  · exact barred

theorem ask (alert : service.Alert) (consistent : service.table.Consistent)
    (transaction : TransactionId) (page : PageId) (mode : LockMode) (sample : Nat) :
    (service.ask transaction page mode sample).2.Alert := by
  apply alert.of_strengthens consistent (service.ask_strengthens transaction page mode sample)
  unfold LockService.ask
  cases granted : service.table.grant? transaction page mode with
  | some table => exact fun request parked _ => .inl parked
  | none =>
      cases service.range.draw sample with
      | error fault => exact fun request parked _ => .inl parked
      | ok bound =>
          intro request parked quiet
          rcases List.mem_append.mp parked with before | last
          · exact .inl before
          · rw [List.mem_singleton.mp last]
            refine .inr (LockTable.not_grantable_of_grant? ?_)
            exact LockTable.grant?_eq_none_of_same (service.table.records_enqueue page).1 granted

theorem expire (alert : service.Alert) (consistent : service.table.Consistent)
    (request : LockRequest) : (service.expire request).2.Alert := by
  apply alert.of_strengthens consistent (service.expire_strengthens request)
  unfold LockService.expire
  intro other parked quiet
  cases granted : service.table.grant? request.transaction request.page request.mode with
  | some table =>
      rw [granted] at parked
      exact .inl (List.mem_filter.mp parked).1
  | none =>
      rw [granted] at parked
      exact .inl (List.mem_filter.mp parked).1

theorem retry (alert : service.Alert) (consistent : service.table.Consistent)
    (queued : service.Queued) (parked : request ∈ service.parked) :
    (service.retry request).2.Alert := by
  apply alert.of_strengthens consistent (service.retry_strengthens request)
  unfold LockService.retry
  intro other still quiet
  cases granted : service.table.grant? request.transaction request.page request.mode with
  | some table =>
      rw [granted] at still
      exact .inl (List.mem_filter.mp still).1
  | none =>
      rw [granted] at still
      obtain ⟨original, before, labelled⟩ := List.mem_map.mp still
      by_cases itself : original.ticket = request.ticket
      · rw [if_pos (beq_iff_eq.mpr itself)] at labelled
        rw [← labelled, queued.unique parked before itself]
        exact .inr (LockTable.not_grantable_of_grant? granted)
      · rw [if_neg fun same => itself (eq_of_beq same)] at labelled
        rw [← labelled]
        exact .inl before

theorem resume (alert : service.Alert) (consistent : service.table.Consistent)
    (queued : service.Queued) (ticket : Ticket) : (service.resume ticket).2.Alert := by
  rcases service.resume_cases ticket with same | ⟨request, parked, -, given | tried⟩
  · rw [same]
    exact alert
  · rw [given]
    exact alert.expire consistent request
  · rw [tried]
    exact alert.retry consistent queued parked

theorem acquire (alert : service.Alert) (consistent : service.table.Consistent)
    (transaction : TransactionId) (page : PageId) (mode : LockMode) (sample : Nat) :
    (service.acquire transaction page mode sample).2.Alert := by
  have asked := alert.ask consistent transaction page mode sample
  rcases service.acquire_after transaction page mode sample with same | ⟨request, waits, later⟩
  · rw [same]
    exact asked
  · rw [later]
    have awaited : ((service.ask transaction page mode sample).2.await request).Alert := asked
    exact awaited.expire
      ((service.ask_strengthens transaction page mode sample).consistent consistent) request

theorem signal {signals : List Channel} {table : LockTable} (alert : service.Alert)
    (queued : service.Queued) (releases : service.table.Releases signals table) :
    ({ service with table := table }.signal signals).Alert := by
  intro request parked quiet
  obtain ⟨original, before, labelled⟩ := List.mem_map.mp parked
  by_cases signalled : signals.contains original.channel
  · rw [if_pos signalled] at labelled
    rw [← labelled] at quiet
    cases quiet
  · rw [if_neg signalled] at labelled
    subst labelled
    have barred := alert original before quiet
    cases free : LockService.grantable { service with table := table } original with
    | false => exact free
    | true =>
        have woken := (queued.signal_wakes releases before barred free).1
        exact absurd (List.contains_iff_mem.mpr woken) signalled

theorem perform (alert : service.Alert) (consistent : service.table.Consistent)
    (queued : service.Queued) (call : LockCall) : (service.perform call).2.Alert := by
  cases call with
  | ask transaction page mode sample => exact alert.ask consistent transaction page mode sample
  | resume ticket => exact alert.resume consistent queued ticket
  | acquire transaction page mode sample =>
      exact alert.acquire consistent transaction page mode sample
  | release transaction page =>
      exact alert.signal queued (service.table.releases_release transaction page)
  | releaseAll transaction =>
      exact alert.signal queued (service.table.releases_releaseAll transaction)
  | pass time => exact alert

end Alert

/-! ### Runs -/

variable {range : WaitRange} {history : List LockEvent}

theorem Run.queued (run : Run (LockService.start range) history service) : service.Queued := by
  induction run with
  | start => exact Queued.start range
  | step call earlier ih => exact ih.perform call

theorem Run.alert (run : Run (LockService.start range) history service) : service.Alert := by
  induction run with
  | start =>
      intro request parked
      cases parked
  | step call earlier ih => exact ih.perform earlier.realizes.consistent earlier.queued call

/-- After any run, the calls that make a parked request grantable are releases, and each signals the
channel of the request in the same step, so that a request that was not signalled is not grantable.
A page has a `WaitQueue` iff requests are parked on it; `count` is their number and `channel` is the
channel of each. -/
theorem wakes_every_waiter (run : Run (LockService.start range) history service) :
    (∀ call, ∀ request ∈ service.parked, service.grantable request = false →
      (service.perform call).2.grantable request = true →
        call.LetsGo ∧ request.channel ∈ service.signals call ∧
          { request with signalled := true } ∈ (service.perform call).2.parked) ∧
      (∀ request ∈ service.parked, request.signalled = false →
        service.grantable request = false) ∧
      (∀ page, (service.table.queues[page]?).isSome ↔
        ∃ request ∈ service.parked, request.page = page) ∧
      ∀ page queue, service.table.queues[page]? = some queue →
        queue.count = service.waiting page ∧
          ∀ request ∈ service.parked, request.page = page → request.channel = queue.channel := by
  have queued := run.queued
  refine ⟨?_, run.alert, ?_, ?_⟩
  · intro call request parked barred free
    exact queued.wakes run.realizes.consistent parked barred free
  · intro page
    constructor
    · intro present
      obtain ⟨queue, found⟩ := Option.isSome_iff_exists.mp present
      have several := queued.attended page queue found
      have counted := queued.counted page
      rw [LockTable.waiters, found] at counted
      have waiting : 0 < service.waiting page := counted ▸ several
      obtain ⟨request, parked, here⟩ := List.countP_pos_iff.mp waiting
      exact ⟨request, parked, of_decide_eq_true here⟩
    · rintro ⟨request, parked, rfl⟩
      have listening := queued.listening request parked
      rw [LockTable.channel?] at listening
      rw [← Option.isSome_map, listening]
      rfl
  · intro page queue found
    constructor
    · have counted := queued.counted page
      rwa [LockTable.waiters, found] at counted
    · rintro request parked rfl
      have listening := queued.listening request parked
      rw [LockTable.channel?, found] at listening
      exact (Option.some.inj listening).symm

/-- The upgrade of the first reader is signalled when the second reader releases. -/
theorem wakes_every_waiter_small :
    ∃ history service, Run (LockService.start WaitRange.standard) history service ∧
      history.map LockEvent.call = upgrade.take 4 ∧
      ((∀ call, ∀ request ∈ service.parked, service.grantable request = false →
        (service.perform call).2.grantable request = true →
          call.LetsGo ∧ request.channel ∈ service.signals call ∧
            { request with signalled := true } ∈ (service.perform call).2.parked) ∧
        (∀ request ∈ service.parked, request.signalled = false →
          service.grantable request = false) ∧
        (∀ page, (service.table.queues[page]?).isSome ↔
          ∃ request ∈ service.parked, request.page = page) ∧
        ∀ page queue, service.table.queues[page]? = some queue →
          queue.count = service.waiting page ∧
            ∀ request ∈ service.parked, request.page = page → request.channel = queue.channel) ∧
      service.parked.map service.grantable = [false] ∧
      service.parked.map (service.perform (.releaseAll ⟨2⟩)).2.grantable = [true] := by
  have run := (@Run.start (LockService.start WaitRange.standard)).performAll (upgrade.take 4)
  refine ⟨_, _, run, rfl, wakes_every_waiter run, ?_, ?_⟩
  · decide +kernel
  · decide +kernel

end LockService

end RecordStore
