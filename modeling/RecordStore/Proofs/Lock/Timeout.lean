import RecordStore.Proofs.Lock.Absence

set_option autoImplicit false

/-! A request that times out can be left out of a run, with its waiting and its retries: the calls
of the others have the same outcomes and wake the same requests, and the lock table ends up the
same. -/

namespace RecordStore

namespace LockService

variable {service middle after : LockService} {gone : Ticket}

/-! ### The end of a request -/

structure Continues (before after : LockService) : Prop where
  tickets : before.nextTicket ≤ after.nextTicket
  parked : ∀ request ∈ after.parked, before.nextTicket ≤ request.ticket ∨
    ∃ former ∈ before.parked, { former with signalled := request.signalled } = request

namespace Continues

theorem of_subset (tickets : service.nextTicket ≤ after.nextTicket)
    (parked : ∀ request ∈ after.parked,
      request ∈ service.parked ∨ service.nextTicket ≤ request.ticket) :
    Continues service after where
  tickets := tickets
  parked request member := by
    rcases parked request member with former | fresh
    · exact .inr ⟨request, former, rfl⟩
    · exact .inl fresh

theorem refl (service : LockService) : Continues service service :=
  of_subset (Nat.le_refl _) fun _ member => .inl member

theorem trans (first : Continues service middle) (second : Continues middle after) :
    Continues service after where
  tickets := Nat.le_trans first.tickets second.tickets
  parked request member := by
    rcases second.parked request member with fresh | ⟨former, earlier, same⟩
    · exact .inl (Nat.le_trans first.tickets fresh)
    · have ticket : former.ticket = request.ticket := by rw [← same]
      rcases first.parked former earlier with fresh | ⟨original, earliest, also⟩
      · exact .inl (ticket ▸ fresh)
      · exact .inr ⟨original, earliest, by rw [← same, ← also]⟩

theorem ask (service : LockService) (transaction : TransactionId) (page : PageId)
    (mode : LockMode) (sample : Nat) :
    Continues service (service.ask transaction page mode sample).2 := by
  unfold LockService.ask
  cases service.table.grant? transaction page mode with
  | some table => exact of_subset (Nat.le_refl _) fun _ member => .inl member
  | none =>
      cases service.range.draw sample with
      | error fault => exact refl service
      | ok bound =>
          refine of_subset (Nat.le_succ _) fun request member => ?_
          rcases List.mem_append.mp member with former | last
          · exact .inl former
          · rw [List.mem_singleton.mp last]
            exact .inr (Nat.le_refl _)

theorem unpark (service : LockService) (request : LockRequest) (table : LockTable) :
    Continues service (service.unpark request table) :=
  of_subset (Nat.le_refl _) fun _ member => .inl (List.mem_filter.mp member).1

theorem expire (service : LockService) (request : LockRequest) :
    Continues service (service.expire request).2 := by
  unfold LockService.expire
  cases service.table.grant? request.transaction request.page request.mode with
  | some table => exact unpark service request table
  | none => exact unpark service request service.table

theorem retry (service : LockService) (request : LockRequest) :
    Continues service (service.retry request).2 := by
  unfold LockService.retry
  cases service.table.grant? request.transaction request.page request.mode with
  | some table => exact unpark service request table
  | none =>
      refine ⟨Nat.le_refl _, fun held member => .inr ?_⟩
      obtain ⟨former, earlier, same⟩ := List.mem_map.mp member
      refine ⟨former, earlier, ?_⟩
      rw [← same]
      split <;> rfl

theorem signal (service : LockService) (table : LockTable) (channels : List Channel) :
    Continues service ({ service with table := table }.signal channels) := by
  refine ⟨Nat.le_refl _, fun held member => .inr ?_⟩
  obtain ⟨former, earlier, same⟩ := List.mem_map.mp member
  refine ⟨former, earlier, ?_⟩
  rw [← same]
  split <;> rfl

theorem perform (service : LockService) (call : LockCall) :
    Continues service (service.perform call).2 := by
  cases call with
  | ask transaction page mode sample => exact ask service transaction page mode sample
  | resume ticket =>
      change Continues service (service.resume ticket).2
      rcases service.resume_cases ticket with same | ⟨request, -, -, expired | retried⟩
      · rw [same]
        exact refl service
      · rw [expired]
        exact expire service request
      · rw [retried]
        exact retry service request
  | acquire transaction page mode sample =>
      change Continues service (service.acquire transaction page mode sample).2
      have asked := ask service transaction page mode sample
      rcases service.acquire_after transaction page mode sample with same | ⟨request, -, later⟩
      · rw [same]
        exact asked
      · rw [later]
        have awaited : Continues service
            ((service.ask transaction page mode sample).2.await request) :=
          ⟨asked.tickets, asked.parked⟩
        exact awaited.trans (expire _ request)
  | release transaction page => exact signal service _ _
  | releaseAll transaction => exact signal service _ _
  | pass time => exact ⟨Nat.le_refl _, (refl service).parked⟩

theorem run {history : List LockEvent} (run : Run service history after) :
    Continues service after := by
  induction run with
  | start => exact refl service
  | step call earlier ih => exact ih.trans (perform _ call)

end Continues

structure Absent (gone : Ticket) (service : LockService) : Prop where
  issued : gone < service.nextTicket
  left : ∀ request ∈ service.parked, request.ticket ≠ gone

namespace Absent

theorem later (absent : Absent gone service) (continues : Continues service after) :
    Absent gone after where
  issued := Nat.lt_of_lt_of_le absent.issued continues.tickets
  left request member := by
    rcases continues.parked request member with fresh | ⟨former, earlier, same⟩
    · exact (Nat.ne_of_lt (Nat.lt_of_lt_of_le absent.issued fresh)).symm
    · rw [← same]
      exact absent.left former earlier

theorem find?_eq_none (absent : Absent gone service) : service.find? gone = none := by
  refine List.find?_eq_none.mpr fun request member => ?_
  rw [beq_iff_eq]
  exact absent.left request member

theorem resume_eq (absent : Absent gone service) :
    service.resume gone = (.silent, service) := by
  unfold LockService.resume
  rw [absent.find?_eq_none]

theorem unpark {request : LockRequest} (own : request.ticket = gone)
    (issued : gone < service.nextTicket) (table : LockTable) :
    Absent gone (service.unpark request table) where
  issued := issued
  left other member := by
    rw [← own]
    exact bne_iff_ne.mp (List.mem_filter.mp member).2

theorem expire {request : LockRequest} (own : request.ticket = gone)
    (issued : gone < service.nextTicket) : Absent gone (service.expire request).2 := by
  unfold LockService.expire
  cases service.table.grant? request.transaction request.page request.mode with
  | some table => exact unpark own issued table
  | none => exact unpark own issued service.table

theorem of_ended (queued : service.Queued) {request : LockRequest}
    {outcome : Except LockTimeout Unit}
    (ended : (service.resume gone).1 = .ended request outcome) :
    Absent gone (service.resume gone).2 := by
  unfold LockService.resume at ended ⊢
  cases found : service.find? gone with
  | none =>
      rw [found] at ended
      cases ended
  | some held =>
      obtain ⟨parked, own⟩ := mem_of_find? found
      have issued : gone < service.nextTicket := own ▸ queued.ticketed held parked
      rw [found] at ended
      simp only at ended ⊢
      split
      · exact expire own issued
      · next early =>
          rw [if_neg early] at ended
          unfold LockService.retry at ended ⊢
          cases granted : service.table.grant? held.transaction held.page held.mode with
          | some table => exact unpark own issued table
          | none =>
              rw [granted] at ended
              cases ended

end Absent

/-! ### Runs of the others -/

/-- A resumed request was signalled, or its deadline has passed. -/
def Wakes (service : LockService) : LockCall → Prop
  | .resume ticket => ∃ request ∈ service.parked, request.ticket = ticket ∧
      (request.signalled = true ∨ request.deadline ≤ service.clock)
  | _ => True

def Prompted (service : LockService) : List LockCall → Prop
  | [] => True
  | call :: calls => service.Wakes call ∧ (service.perform call).2.Prompted calls

theorem prompted_cons {call : LockCall} {calls : List LockCall} :
    service.Prompted (call :: calls) ↔
      service.Wakes call ∧ (service.perform call).2.Prompted calls := Iff.rfl

theorem prompted_append (service : LockService) (calls others : List LockCall) :
    service.Prompted (calls ++ others) ↔
      service.Prompted calls ∧ (service.performAll calls).2.Prompted others := by
  induction calls generalizing service with
  | nil => exact (and_iff_right trivial).symm
  | cons call calls ih =>
      rw [List.cons_append, Prompted, Prompted, ih, and_assoc]
      rfl

theorem Run.prompted_append {earlier later : List LockEvent} (run : Run service earlier middle) :
    service.Prompted ((earlier ++ later).map LockEvent.call) ↔
      service.Prompted (earlier.map LockEvent.call) ∧
        middle.Prompted (later.map LockEvent.call) := by
  rw [List.map_append, LockService.prompted_append, run.performAll_eq]

variable {reduced : LockService}

theorem Lacks.wakes (lacks : Lacks gone service reduced) {call : LockCall}
    (other : call ≠ .resume gone) (wakes : service.Wakes call) :
    reduced.Wakes (call.without gone) := by
  cases call with
  | resume ticket =>
      obtain ⟨request, parked, rfl, reason⟩ := wakes
      have apart : request.ticket ≠ gone := fun same => other (congrArg LockCall.resume same)
      have member : request.seen gone ∈ reduced.parked.map LockRequest.unplugged := by
        rw [lacks.parked]
        exact List.mem_map_of_mem (List.mem_filter.mpr ⟨parked, bne_iff_ne.mpr apart⟩)
      obtain ⟨also, held, alike⟩ := List.mem_map.mp member
      have same := LockRequest.resembles_of_seen alike
      refine ⟨also, held, same.ticket, ?_⟩
      rw [same.signalled, same.deadline, lacks.clock]
      exact reason
  | _ => trivial

/-- The calls of the others can be made without a request that never succeeds, with the same
outcomes. -/
theorem Lacks.run {events : List LockEvent} {final : LockService}
    (lacks : Lacks gone service reduced) (tidy : service.Tidy) (tidyToo : reduced.Tidy)
    (run : Run service events final)
    (fails : ∀ event ∈ events, event.call = .resume gone →
      ∀ request, event.outcome ≠ .ended request (.ok ())) :
    ∃ others last, Run reduced others last ∧
      others.map LockEvent.unplugged =
        (events.filterMap (LockEvent.without gone)).map LockEvent.unplugged ∧
      Lacks gone final last ∧
      (service.Prompted (events.map LockEvent.call) →
        reduced.Prompted (others.map LockEvent.call)) := by
  induction events generalizing service reduced with
  | nil =>
      cases run.performAll_eq
      exact ⟨[], reduced, .start, rfl, lacks, id⟩
  | cons event events ih =>
      obtain ⟨outcome, rest⟩ := run.cons
      have later := fun event member => fails event (List.mem_cons_of_mem _ member)
      by_cases own : event.call = .resume gone
      · have kept : Lacks gone (service.perform event.call).2 reduced := by
          rw [own] at outcome ⊢
          refine lacks.resume_own fun request ended => ?_
          exact fails event List.mem_cons_self own request (outcome.symm.trans ended)
        obtain ⟨others, last, runToo, same, final, prompted⟩ :=
          ih kept (tidy.perform event.call) tidyToo rest later
        refine ⟨others, last, runToo, ?_, final, fun reasons => prompted reasons.2⟩
        rw [same, List.filterMap_cons, LockEvent.without, if_pos own]
      · obtain ⟨outcomes, kept⟩ := lacks.perform tidy tidyToo own
        obtain ⟨others, last, runToo, same, final, prompted⟩ :=
          ih kept (tidy.perform event.call) (tidyToo.perform _) rest later
        have first := (@Run.start reduced).step (event.call.without gone)
        refine ⟨_, last, first.append runToo, ?_, final, fun reasons => ?_⟩
        · rw [List.nil_append, List.singleton_append, List.map_cons, same, List.filterMap_cons,
            LockEvent.without, if_neg own]
          refine congrArg (· :: _) ?_
          rw [LockEvent.unplugged, LockEvent.unplugged, outcomes, LockOutcome.map_map, outcome]
          rfl
        · exact ⟨lacks.wakes own reasons.1, prompted reasons.2⟩

/-- A ticket that is no longer parked occurs in no later event. -/
theorem Absent.silent {events : List LockEvent} {final : LockService}
    (absent : Absent gone service) (run : Run service events final) :
    ∀ event ∈ events, event.call = .resume gone → event.outcome = .silent := by
  intro event member own
  obtain ⟨front, back, rfl⟩ := List.append_of_mem member
  obtain ⟨middle, first, second⟩ := run.split
  obtain ⟨outcome, -⟩ := second.cons
  rw [own] at outcome
  rw [← outcome]
  exact congrArg Prod.fst (absent.later (Continues.run first)).resume_eq

/-- A request that ends later has not been granted before. -/
theorem fails_before {events : List LockEvent} (tidy : service.Tidy)
    (run : Run service events middle) {request : LockRequest} {outcome : Except LockTimeout Unit}
    (ends : (middle.resume gone).1 = .ended request outcome) :
    ∀ event ∈ events, event.call = .resume gone →
      ∀ other, event.outcome ≠ .ended other (.ok ()) := by
  intro event member own other ended
  obtain ⟨front, back, rfl⟩ := List.append_of_mem member
  obtain ⟨between, first, second⟩ := run.split
  obtain ⟨result, rest⟩ := second.cons
  rw [own] at result rest
  have left : Absent gone (between.resume gone).2 :=
    .of_ended (first.tidy tidy).queued (result.trans ended)
  rw [(left.later (Continues.run rest)).resume_eq] at ends
  cases ends

/-! ### Requests that time out -/

/-- A history in which one call times out, and that history without the call: later tickets are
renumbered, and time passes as before. -/
inductive TimesOut (start : LockService) : List LockEvent → Ticket → List LockEvent → Prop where
  | parked {earlier between later : List LockEvent} {transaction : TransactionId} {page : PageId}
      {mode : LockMode} {sample : Nat} {request ended : LockRequest} {expired : LockTimeout} :
      TimesOut start
        (earlier ++ ⟨.ask transaction page mode sample, .asked (.ok (.parked request))⟩ ::
          (between ++ ⟨.resume request.ticket, .ended ended (.error expired)⟩ :: later))
        request.ticket
        (earlier ++ (between ++ later).filterMap (LockEvent.without request.ticket))
  | alone {earlier later : List LockEvent} {transaction : TransactionId} {page : PageId}
      {mode : LockMode} {sample : Nat} {expired : LockTimeout} {middle : LockService} :
      Run start earlier middle →
      TimesOut start
        (earlier ++ ⟨.acquire transaction page mode sample,
          .acquired (.error (.timeout expired))⟩ :: later)
        middle.nextTicket
        (earlier ++ ⟨.pass (middle.clock + expired.waited), .silent⟩ ::
          later.filterMap (LockEvent.without middle.nextTicket))

/-- The same locks, the same waiters, and the same parked requests up to their tickets. -/
structure EndsLike (gone : Ticket) (service reduced : LockService) : Prop where
  records : reduced.table.records = service.table.records
  held : reduced.table.held = service.table.held
  waiters : ∀ page, reduced.table.waiters page = service.table.waiters page
  parked : reduced.parked.map LockRequest.unplugged = service.parked.map (LockRequest.seen gone)

theorem Lacks.endsLike (lacks : Lacks gone service reduced) (queued : service.Queued)
    (queuedToo : reduced.Queued) (absent : Absent gone service) :
    EndsLike gone service reduced := by
  have parked : reduced.parked.map LockRequest.unplugged =
      service.parked.map (LockRequest.seen gone) := by
    rw [lacks.parked, List.filter_eq_self.mpr]
    intro request member
    exact bne_iff_ne.mpr (absent.left request member)
  refine ⟨lacks.books.records, lacks.books.held, fun page => ?_, parked⟩
  calc reduced.table.waiters page
      = (reduced.parked.map LockRequest.unplugged).countP fun request => request.page = page := by
        rw [queuedToo.counted, List.countP_map]
        rfl
    _ = service.table.waiters page := by
        rw [parked, List.countP_map, queued.counted]
        rfl

theorem expire_error {request : LockRequest} {expired : LockTimeout}
    (failed : (service.expire request).1 = .error expired) :
    service.table.grant? request.transaction request.page request.mode = none ∧
      expired = ⟨request.transaction, request.page, request.bound⟩ := by
  unfold expire at failed
  cases granted : service.table.grant? request.transaction request.page request.mode with
  | some table =>
      rw [granted] at failed
      cases failed
  | none =>
      rw [granted] at failed
      exact ⟨rfl, (Except.error.inj failed).symm⟩

/-- An `acquire` that times out is an `ask` that parks, followed by `expire` at the deadline. -/
theorem acquire_timeout {transaction : TransactionId} {page : PageId} {mode : LockMode}
    {sample : Nat} {expired : LockTimeout}
    (failed : (service.acquire transaction page mode sample).1 = .error (.timeout expired)) :
    ∃ request parked, service.ask transaction page mode sample = (.ok (.parked request), parked) ∧
      ((parked.await request).expire request).1 = .error expired ∧
      (service.acquire transaction page mode sample).2 =
        ((parked.await request).expire request).2 := by
  unfold LockService.acquire at failed ⊢
  rcases asked : service.ask transaction page mode sample with ⟨fault | granted | request, parked⟩
  · rw [asked] at failed
    cases failed
  · rw [asked] at failed
    cases failed
  · rw [asked] at failed
    rcases ended : (parked.await request).expire request with ⟨failure | granted, last⟩
    · simp only [ended] at failed
      cases failed
      exact ⟨request, parked, rfl, congrArg Prod.fst ended, by simp only [ended]⟩
    · simp only [ended] at failed
      cases failed

/-- An `acquire` that times out acts as `pass` for the time it waited, up to `Lacks`. -/
theorem Lacks.acquire_own {transaction : TransactionId} {page : PageId} {mode : LockMode}
    {sample : Nat} {expired : LockTimeout} (tidy : service.Tidy)
    (failed : (service.acquire transaction page mode sample).1 = .error (.timeout expired)) :
    Lacks service.nextTicket (service.acquire transaction page mode sample).2
        (service.perform (.pass (service.clock + expired.waited))).2 ∧
      Absent service.nextTicket (service.acquire transaction page mode sample).2 := by
  obtain ⟨request, parked, asked, ended, after⟩ := acquire_timeout failed
  have lacks := Lacks.park tidy.queued asked
  obtain ⟨-, bound, rfl, -⟩ := ask_parked asked
  have waited : bound = expired.waited := by
    rw [(expire_error ended).2]
  have passed := lacks.pass (service.clock + bound)
  rw [after, ← waited]
  exact ⟨passed.expire_own rfl ended, .expire rfl lacks.issued⟩

/-- A run of the other calls alone with the same outcomes and the same end, in which every
resumption that had a reason has one. -/
structure Spared (start : LockService) (history : List LockEvent) (service : LockService)
    (gone : Ticket) (others lone : List LockEvent) (reduced : LockService) : Prop where
  run : Run start lone reduced
  outcomes : lone.map LockEvent.unplugged = others.map LockEvent.unplugged
  ends : EndsLike gone service reduced
  prompted : start.Prompted (history.map LockEvent.call) → start.Prompted (lone.map LockEvent.call)

variable {start before : LockService} {earlier between later : List LockEvent}

theorem Spared.parked {transaction : TransactionId} {page : PageId}
    {mode : LockMode} {sample : Nat} {request ended : LockRequest} {expired : LockTimeout}
    (tidy : start.Tidy)
    (run : Run start (earlier ++ ⟨.ask transaction page mode sample,
      .asked (.ok (.parked request))⟩ ::
        (between ++ ⟨.resume request.ticket, .ended ended (.error expired)⟩ :: later)) service) :
    ∃ lone reduced, Spared start
      (earlier ++ ⟨.ask transaction page mode sample, .asked (.ok (.parked request))⟩ ::
        (between ++ ⟨.resume request.ticket, .ended ended (.error expired)⟩ :: later))
      service request.ticket
      (earlier ++ (between ++ later).filterMap (LockEvent.without request.ticket))
      lone reduced := by
  obtain ⟨before, first, rest⟩ := run.split
  obtain ⟨answer, rest⟩ := rest.cons
  obtain ⟨waiting, second, final⟩ := rest.split
  obtain ⟨failure, last⟩ := final.cons
  have early := first.tidy tidy
  have tidyParked := early.perform (.ask transaction page mode sample)
  have tidyWaiting := second.tidy tidyParked
  have asked : before.ask transaction page mode sample = (.ok (.parked request),
      (before.ask transaction page mode sample).2) :=
    Prod.ext (LockOutcome.asked.inj answer) rfl
  have left : Absent request.ticket (waiting.resume request.ticket).2 :=
    .of_ended tidyWaiting.queued failure
  have fails : ∀ event ∈ between ++ ⟨.resume request.ticket, .ended ended (.error expired)⟩ ::
      later, event.call = .resume request.ticket →
        ∀ other, event.outcome ≠ .ended other (.ok ()) := by
    intro event member own other
    rcases List.mem_append.mp member with earlier | member
    · exact fails_before tidyParked second failure event earlier own other
    · rcases List.mem_cons.mp member with rfl | behind
      · intro same
        cases same
      · rw [left.silent last event behind own]
        intro same
        cases same
  obtain ⟨lone, reduced, runToo, same, lacks, prompted⟩ :=
    (Lacks.park early.queued asked).run tidyParked early rest fails
  have absent := left.later (Continues.run last)
  refine ⟨earlier ++ lone, reduced, first.append runToo, ?_,
    lacks.endsLike (run.tidy tidy).queued ((first.append runToo).tidy tidy).queued absent, ?_⟩
  · rw [List.map_append, List.map_append, same, List.filterMap_append, List.filterMap_append,
      List.filterMap_cons, LockEvent.without, if_pos rfl]
  · intro reasons
    obtain ⟨before, waits⟩ := first.prompted_append.mp reasons
    exact first.prompted_append.mpr ⟨before, prompted (prompted_cons.mp waits).2⟩

theorem Spared.alone {transaction : TransactionId} {page : PageId} {mode : LockMode} {sample : Nat}
    {expired : LockTimeout} (tidy : start.Tidy) (first : Run start earlier before)
    (run : Run start (earlier ++ ⟨.acquire transaction page mode sample,
      .acquired (.error (.timeout expired))⟩ :: later) service) :
    ∃ lone reduced, Spared start
      (earlier ++ ⟨.acquire transaction page mode sample,
        .acquired (.error (.timeout expired))⟩ :: later)
      service before.nextTicket
      (earlier ++ ⟨.pass (before.clock + expired.waited), .silent⟩ ::
        later.filterMap (LockEvent.without before.nextTicket))
      lone reduced := by
  obtain ⟨reached, also, rest⟩ := run.split
  obtain rfl : reached = before :=
    congrArg Prod.snd (also.performAll_eq.symm.trans first.performAll_eq)
  obtain ⟨answer, rest⟩ := rest.cons
  have early := first.tidy tidy
  have tidyAfter := early.perform (.acquire transaction page mode sample)
  have passed := first.step (.pass (reached.clock + expired.waited))
  obtain ⟨lacks, absent⟩ := Lacks.acquire_own early (LockOutcome.acquired.inj answer)
  have fails : ∀ event ∈ later, event.call = .resume reached.nextTicket →
      ∀ other, event.outcome ≠ .ended other (.ok ()) := by
    intro event member own other
    rw [absent.silent rest event member own]
    intro same
    cases same
  obtain ⟨lone, reduced, runToo, same, final, prompted⟩ :=
    lacks.run tidyAfter (passed.tidy tidy) rest fails
  have whole := passed.append runToo
  refine ⟨_, reduced, whole, ?_, final.endsLike (run.tidy tidy).queued (whole.tidy tidy).queued
    (absent.later (Continues.run rest)), ?_⟩
  · rw [List.append_assoc, List.map_append, List.map_append, List.map_append, same]
    rfl
  · intro reasons
    obtain ⟨before, acquires⟩ := first.prompted_append.mp reasons
    refine passed.prompted_append.mpr ⟨?_, prompted (prompted_cons.mp acquires).2⟩
    exact first.prompted_append.mpr ⟨before, trivial, trivial⟩

theorem TimesOut.spared {history others : List LockEvent} (tidy : start.Tidy)
    (timesOut : TimesOut start history gone others) (run : Run start history service) :
    ∃ lone reduced, Spared start history service gone others lone reduced := by
  cases timesOut with
  | parked => exact Spared.parked tidy run
  | alone first => exact Spared.alone tidy first run

/-! ### Upgrades that fail -/

end LockService

namespace Holdings

variable {holdings : Holdings} {transaction : TransactionId} {page : PageId}

theorem isSome_record {event : LockEvent} (held : (holdings transaction page).isSome)
    (kept : event.call ≠ .release transaction page ∧ event.call ≠ .releaseAll transaction) :
    (holdings.record event transaction page).isSome := by
  have granted : ∀ other place mode, (holdings.grant other place mode transaction page).isSome := by
    intro other place mode
    unfold grant
    split
    · rfl
    · exact held
  unfold record
  split
  · exact granted _ _ _
  · exact granted _ _ _
  · exact granted _ _ _
  · unfold release
    split
    · next same =>
        obtain ⟨rfl, rfl⟩ := same
        exact absurd rfl kept.1
    · exact held
  · unfold releaseAll
    split
    · next same =>
        subst same
        exact absurd rfl kept.2
    · exact held
  · exact held

theorem isSome_after {earlier events : List LockEvent}
    (held : (after earlier transaction page).isSome)
    (kept : ∀ event ∈ events, event.call ≠ .release transaction page ∧
      event.call ≠ .releaseAll transaction) :
    (after (earlier ++ events) transaction page).isSome := by
  induction events generalizing earlier with
  | nil => rwa [List.append_nil]
  | cons event events ih =>
      have first : (after (earlier ++ [event]) transaction page).isSome := by
        rw [after_append]
        exact isSome_record held (kept event List.mem_cons_self)
      have later := ih first fun other member => kept other (List.mem_cons_of_mem _ member)
      rwa [List.append_assoc] at later

/-- No other mode bars the exclusive holder of a page. -/
theorem Compatible.free (compatible : holdings.Compatible)
    (writing : holdings transaction page = some .exclusive) (mode : LockMode) :
    holdings.Free transaction page mode := by
  rintro other different (also | ⟨also, -⟩)
  · cases (compatible transaction other page _ _ different.symm writing also).1
  · cases (compatible transaction other page _ _ different.symm writing also).1

end Holdings

namespace LockService

variable {service middle : LockService} {request ended : LockRequest}
  {transaction : TransactionId} {page : PageId} {history : List LockEvent} {range : WaitRange}

/-- A shared holder has asked for exclusive mode and, as the last event, has timed out, without a
release in between. -/
inductive UpgradeFails (transaction : TransactionId) (page : PageId) : List LockEvent → Prop where
  | parked {earlier between : List LockEvent} {sample : Nat} {request ended : LockRequest}
      {expired : LockTimeout} :
      Holdings.after earlier transaction page = some .shared →
      (∀ event ∈ between, event.call ≠ .release transaction page ∧
        event.call ≠ .releaseAll transaction) →
      UpgradeFails transaction page
        (earlier ++ ⟨.ask transaction page .exclusive sample, .asked (.ok (.parked request))⟩ ::
          (between ++ [⟨.resume request.ticket, .ended ended (.error expired)⟩]))
  | alone {earlier : List LockEvent} {sample : Nat} {expired : LockTimeout} :
      Holdings.after earlier transaction page = some .shared →
      UpgradeFails transaction page
        (earlier ++ [⟨.acquire transaction page .exclusive sample,
          .acquired (.error (.timeout expired))⟩])

theorem Continues.same (continues : Continues service middle) (queued : service.Queued)
    (parked : request ∈ service.parked) (still : ended ∈ middle.parked)
    (ticket : ended.ticket = request.ticket) :
    { request with signalled := ended.signalled } = ended := by
  rcases continues.parked ended still with fresh | ⟨former, earlier, same⟩
  · rw [ticket] at fresh
    exact absurd (queued.ticketed request parked) (Nat.not_lt.mpr fresh)
  · have origin : former = request := by
      refine queued.unique parked earlier ?_
      rw [← ticket, ← same]
    rw [← origin]
    exact same

theorem resume_error {ticket : Ticket} {expired : LockTimeout}
    (failed : (service.resume ticket).1 = .ended request (.error expired)) :
    request ∈ service.parked ∧ request.ticket = ticket ∧
      service.table.grant? request.transaction request.page request.mode = none := by
  unfold LockService.resume at failed
  cases found : service.find? ticket with
  | none =>
      rw [found] at failed
      cases failed
  | some held =>
      obtain ⟨parked, own⟩ := mem_of_find? found
      rw [found] at failed
      simp only at failed
      split at failed
      · obtain ⟨rfl, refused⟩ := LockOutcome.ended.inj failed
        exact ⟨parked, own, (expire_error refused).1⟩
      · rcases tried : service.retry held with ⟨granted | refused, after⟩
        · rw [tried] at failed
          cases failed
        · rw [tried] at failed
          cases failed

/-- A parked request that expires is not grantable at that moment. -/
theorem Run.barred {start : LockService} {earlier between : List LockEvent} {mode : LockMode}
    {sample : Nat} {expired : LockTimeout} (tidy : start.Tidy)
    (run : Run start (earlier ++ ⟨.ask transaction page mode sample,
      .asked (.ok (.parked request))⟩ :: between) service)
    (failure : (service.resume request.ticket).1 = .ended ended (.error expired)) :
    service.table.grant? transaction page mode = none := by
  obtain ⟨still, ticket, refused⟩ := resume_error failure
  obtain ⟨before, first, rest⟩ := run.split
  obtain ⟨answer, second⟩ := rest.cons
  have asked : before.ask transaction page mode sample = (.ok (.parked request),
      (before.ask transaction page mode sample).2) :=
    Prod.ext (LockOutcome.asked.inj answer) rfl
  have queued := ((first.tidy tidy).perform (.ask transaction page mode sample)).queued
  have parked := before.parked_of_ask transaction page mode sample request
    (congrArg Prod.fst asked)
  rw [← (Continues.run second).same queued parked still ticket] at refused
  obtain ⟨-, bound, rfl, -⟩ := ask_parked asked
  exact refused

theorem UpgradeFails.shared (fails : UpgradeFails transaction page history)
    (run : Run (LockService.start range) history service) :
    Holdings.after history transaction page = some .shared := by
  cases fails with
  | alone held =>
      rw [Holdings.after_append]
      exact held
  | @parked earlier between sample request ended expired held kept =>
      rw [← List.cons_append, ← List.append_assoc] at run ⊢
      obtain ⟨waiting, whole, final⟩ := run.split
      have barred := whole.barred (Tidy.start range) final.cons.1
      have realizes := whole.realizes
      have asked : Holdings.after (earlier ++ [⟨.ask transaction page .exclusive sample,
          .asked (.ok (.parked request))⟩]) transaction page = some .shared := by
        rw [Holdings.after_append]
        exact held
      have still := Holdings.isSome_after (by rw [asked]; rfl) kept
      rw [List.append_assoc, List.singleton_append] at still
      obtain ⟨mode, holds⟩ := Option.isSome_iff_exists.mp still
      rw [Holdings.after_append]
      cases mode with
      | shared => exact holds
      | exclusive =>
          have compatible := waiting.table.compatible_modeOf
          rw [realizes.modes] at compatible
          have free := compatible.free holds .exclusive
          rw [← realizes.granted_iff, barred] at free
          cases free

/-! ### Leaving out a request -/

theorem Queued.find?_eq (queued : service.Queued) (parked : request ∈ service.parked) :
    service.find? request.ticket = some request := by
  cases found : service.find? request.ticket with
  | none =>
      have missing := List.find?_eq_none.mp found request parked
      exact absurd (beq_iff_eq.mpr rfl) missing
  | some held =>
      obtain ⟨also, own⟩ := mem_of_find? found
      rw [queued.unique parked also own]

/-- A parked request that is resumed is granted iff it is `Free`. Otherwise it fails iff its
deadline has passed. -/
theorem resume_parked {holdings : Holdings} (queued : service.Queued)
    (realizes : service.table.Realizes holdings) (parked : request ∈ service.parked) :
    ((service.resume request.ticket).1 =
        .ended request (.error ⟨request.transaction, request.page, request.bound⟩) ↔
      request.deadline ≤ service.clock ∧
        ¬ holdings.Free request.transaction request.page request.mode) ∧
    (holdings.Free request.transaction request.page request.mode →
      (service.resume request.ticket).1 = .ended request (.ok ())) := by
  rw [← realizes.granted_iff]
  unfold resume
  simp only [queued.find?_eq parked, expire, retry]
  cases service.table.grant? request.transaction request.page request.mode with
  | some table => by_cases late : request.deadline ≤ service.clock <;> simp [late]
  | none => by_cases late : request.deadline ≤ service.clock <;> simp [late]

/-- A timed-out request can be left out of its run: the other calls have the same outcomes, and the
final locks, index and queues are the same. After a failed upgrade the shared mode is still held. A
parked request fails when it is resumed iff its deadline has passed and it is not `Free` at that
moment. -/
theorem timeouts_leave_no_trace (run : Run (LockService.start range) history service) :
    (∀ gone others, TimesOut (LockService.start range) history gone others →
      ∃ lone reduced,
        Spared (LockService.start range) history service gone others lone reduced) ∧
    (∀ transaction page, UpgradeFails transaction page history →
      Holdings.after history transaction page = some .shared ∧
        service.table.modeOf transaction page = some .shared) ∧
    (∀ request ∈ service.parked,
      ((service.resume request.ticket).1 =
          .ended request (.error ⟨request.transaction, request.page, request.bound⟩) ↔
        request.deadline ≤ service.clock ∧
          ¬ (Holdings.after history).Free request.transaction request.page request.mode) ∧
      ((Holdings.after history).Free request.transaction request.page request.mode →
        (service.resume request.ticket).1 = .ended request (.ok ()))) ∧
    (∀ transaction page mode sample expired,
      (service.acquire transaction page mode sample).1 = .error (.timeout expired) →
        ¬ (Holdings.after history).Free transaction page mode) := by
  have realizes := run.realizes
  refine ⟨?_, ?_, ?_, ?_⟩
  · intro gone others timesOut
    exact timesOut.spared (Tidy.start range) run
  · intro transaction page fails
    rw [realizes.modes]
    exact ⟨fails.shared run, fails.shared run⟩
  · intro request parked
    exact resume_parked run.queued realizes parked
  · intro transaction page mode sample expired failed free
    rw [← realizes.granted_iff, ← service.acquire_ok_iff transaction page mode sample,
      failed] at free
    cases free

deriving instance DecidableEq for Except

deriving instance DecidableEq for LockOutcome

deriving instance DecidableEq for LockEvent

def reading : List LockEvent :=
  [⟨.ask ⟨1⟩ ⟨⟨7⟩, 0⟩ .shared 0, .asked (.ok .granted)⟩,
    ⟨.acquire ⟨2⟩ ⟨⟨7⟩, 0⟩ .shared 0, .acquired (.ok ())⟩]

def upgrading : LockRequest :=
  ⟨0, ⟨1⟩, ⟨⟨7⟩, 0⟩, .exclusive, 0, 1000005, 1000005, false⟩

def following : LockRequest :=
  ⟨1, ⟨3⟩, ⟨⟨7⟩, 0⟩, .exclusive, 0, 1000009, 1000009, false⟩

def meanwhile : List LockEvent :=
  [⟨.ask ⟨3⟩ ⟨⟨7⟩, 0⟩ .exclusive 9, .asked (.ok (.parked following))⟩,
    ⟨.resume 0, .silent⟩, ⟨.pass 1000000000, .silent⟩]

/-- One of two readers asks for exclusive mode and times out. -/
def givingUp : List LockEvent :=
  reading ++ ⟨.ask ⟨1⟩ ⟨⟨7⟩, 0⟩ .exclusive 5, .asked (.ok (.parked upgrading))⟩ ::
    (meanwhile ++ [⟨.resume upgrading.ticket,
      .ended upgrading (.error ⟨⟨1⟩, ⟨⟨7⟩, 0⟩, 1000005⟩)⟩])

theorem timeouts_leave_no_trace_small :
    ∃ service, Run (LockService.start WaitRange.standard) givingUp service ∧
      (∃ lone reduced, Spared (LockService.start WaitRange.standard) givingUp service 0
        (reading ++ (meanwhile ++ []).filterMap (LockEvent.without 0)) lone reduced) ∧
      Holdings.after givingUp ⟨1⟩ ⟨⟨7⟩, 0⟩ = some .shared ∧
      service.parked = [following] ∧
      (service.resume 1).1 = .ended following (.error ⟨⟨3⟩, ⟨⟨7⟩, 0⟩, 1000009⟩) ∧
      ¬ (Holdings.after givingUp).Free ⟨3⟩ ⟨⟨7⟩, 0⟩ .exclusive ∧
      (service.acquire ⟨4⟩ ⟨⟨7⟩, 0⟩ .exclusive 0).1 =
        .error (.timeout ⟨⟨4⟩, ⟨⟨7⟩, 0⟩, 1000000⟩) ∧
      ¬ (Holdings.after givingUp).Free ⟨4⟩ ⟨⟨7⟩, 0⟩ .exclusive := by
  have run := (@Run.start (LockService.start WaitRange.standard)).performAll
    (givingUp.map LockEvent.call)
  have history : ((LockService.start WaitRange.standard).performAll
      (givingUp.map LockEvent.call)).1 = givingUp := by decide +kernel
  rw [List.nil_append, history] at run
  generalize reached : ((LockService.start WaitRange.standard).performAll
    (givingUp.map LockEvent.call)).2 = service at run
  have parked : service.parked = [following] := by
    rw [← reached]
    decide +kernel
  have refused : (service.resume 1).1 =
      .ended following (.error ⟨⟨3⟩, ⟨⟨7⟩, 0⟩, 1000009⟩) := by
    rw [← reached]
    decide +kernel
  have late : (service.acquire ⟨4⟩ ⟨⟨7⟩, 0⟩ .exclusive 0).1 =
      .error (.timeout ⟨⟨4⟩, ⟨⟨7⟩, 0⟩, 1000000⟩) := by
    rw [← reached]
    decide +kernel
  obtain ⟨spared, upgrades, resumes, acquires⟩ := timeouts_leave_no_trace run
  have kept : ∀ event ∈ meanwhile, event.call ≠ .release ⟨1⟩ ⟨⟨7⟩, 0⟩ ∧
      event.call ≠ .releaseAll ⟨1⟩ := by decide +kernel
  refine ⟨service, run, spared _ _ .parked, (upgrades _ _ (.parked rfl kept)).1, parked, refused,
    ?_, late, acquires _ _ _ _ _ late⟩
  exact ((resumes following (by rw [parked]; exact List.mem_singleton_self _)).1.mp refused).2

end LockService

end RecordStore
