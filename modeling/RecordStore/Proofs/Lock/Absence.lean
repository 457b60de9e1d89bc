import RecordStore.Proofs.Lock.Signals

set_option autoImplicit false

/-! The relation `Lacks` between a lock service and the same service without one of its parked
requests: records and index are equal, and the other requests correspond, up to tickets and channel
numbers. All calls but those of that request keep it, with the same outcomes, and so do its retries
until it is granted. -/

namespace RecordStore

/-! ### Leaving out one request -/

def Ticket.without (gone ticket : Nat) : Nat := if gone < ticket then ticket - 1 else ticket

theorem Ticket.without_inj {gone left right : Nat} (first : left ≠ gone)
    (second : right ≠ gone) :
    Ticket.without gone left = Ticket.without gone right ↔ left = right := by
  unfold Ticket.without
  split <;> split <;> omega

theorem Ticket.without_of_lt {gone ticket : Nat} (later : gone < ticket) :
    Ticket.without gone ticket + 1 = ticket := by
  unfold Ticket.without
  rw [if_pos later]
  omega

theorem Ticket.without_of_le {gone ticket : Nat} (earlier : ticket ≤ gone) :
    Ticket.without gone ticket = ticket :=
  if_neg (Nat.not_lt.mpr earlier)

namespace LockRequest

def without (gone : Ticket) (request : LockRequest) : LockRequest :=
  { request with ticket := Ticket.without gone request.ticket }

/-- A request without its channel, which is the same for all requests of a page. -/
def unplugged (request : LockRequest) : LockRequest := { request with channel := 0 }

def seen (gone : Ticket) (request : LockRequest) : LockRequest := (request.without gone).unplugged

structure Resembles (gone : Ticket) (request also : LockRequest) : Prop where
  ticket : also.ticket = Ticket.without gone request.ticket
  transaction : also.transaction = request.transaction
  page : also.page = request.page
  mode : also.mode = request.mode
  bound : also.bound = request.bound
  deadline : also.deadline = request.deadline
  signalled : also.signalled = request.signalled

theorem resembles_of_seen {gone : Ticket} {request also : LockRequest}
    (alike : also.unplugged = request.seen gone) : request.Resembles gone also := by
  simp only [unplugged, seen, without, mk.injEq] at alike
  obtain ⟨ticket, transaction, page, mode, -, bound, deadline, signalled⟩ := alike
  exact ⟨ticket, transaction, page, mode, bound, deadline, signalled⟩

end LockRequest

def LockAnswer.map (change : LockRequest → LockRequest) : LockAnswer → LockAnswer
  | .granted => .granted
  | .parked request => .parked (change request)

/-- Answers that look alike are of one kind. -/
theorem LockAnswer.cases_of_seen {gone : Ticket} {answer answerToo : Except Fault LockAnswer}
    (same : answerToo.map (LockAnswer.map LockRequest.unplugged) =
      answer.map (LockAnswer.map (LockRequest.seen gone))) :
    (∃ fault, answer = .error fault ∧ answerToo = .error fault) ∨
      (answer = .ok .granted ∧ answerToo = .ok .granted) ∨
        ∃ request also, answer = .ok (.parked request) ∧ answerToo = .ok (.parked also) ∧
          also.unplugged = request.seen gone := by
  rcases answer with fault | granted | request <;>
    rcases answerToo with faultToo | grantedToo | also <;>
      simp_all [Except.map, LockAnswer.map]

def LockOutcome.map (change : LockRequest → LockRequest) : LockOutcome → LockOutcome
  | .asked answer => .asked (answer.map (LockAnswer.map change))
  | .ended request outcome => .ended (change request) outcome
  | .acquired outcome => .acquired outcome
  | .silent => .silent

theorem LockOutcome.map_map (first second : LockRequest → LockRequest) (outcome : LockOutcome) :
    (outcome.map first).map second = outcome.map (second ∘ first) := by
  cases outcome with
  | asked answer =>
      cases answer with
      | error fault => rfl
      | ok answer => cases answer <;> rfl
  | _ => rfl

def LockCall.without (gone : Ticket) : LockCall → LockCall
  | .resume ticket => .resume (Ticket.without gone ticket)
  | call => call

namespace LockEvent

def without (gone : Ticket) (event : LockEvent) : Option LockEvent :=
  if event.call = .resume gone then none
  else some ⟨event.call.without gone, event.outcome.map (LockRequest.without gone)⟩

def unplugged (event : LockEvent) : LockEvent :=
  ⟨event.call, event.outcome.map LockRequest.unplugged⟩

end LockEvent

/-! ### Equal records and index -/

namespace LockTable.SameBooks

variable {table other : LockTable}

theorem symm (same : other.SameBooks table) : table.SameBooks other :=
  ⟨same.records.symm, same.held.symm⟩

theorem trans {third : LockTable} (first : other.SameBooks table)
    (second : third.SameBooks other) : third.SameBooks table :=
  ⟨second.records.trans first.records, second.held.trans first.held⟩

theorem heldPages (same : other.SameBooks table) (transaction : TransactionId) :
    other.heldPages transaction = table.heldPages transaction := by
  rw [LockTable.heldPages, LockTable.heldPages, same.held]

theorem holds (same : other.SameBooks table) (transaction : TransactionId) (page : PageId) :
    other.holds transaction page = table.holds transaction page :=
  holds_of_same (congrArg (·[page]?) same.records) transaction

/-- Tables with the same books grant the same requests, and have the same books afterwards. -/
theorem grant? (same : other.SameBooks table) (transaction : TransactionId) (page : PageId)
    (mode : LockMode) :
    (table.grant? transaction page mode = none ∧ other.grant? transaction page mode = none) ∨
      ∃ given also, table.grant? transaction page mode = some given ∧
        other.grant? transaction page mode = some also ∧ also.SameBooks given := by
  have record : other.grantedRecord? transaction page mode =
      table.grantedRecord? transaction page mode := by
    rw [grantedRecord?, grantedRecord?, same.records]
  rw [LockTable.grant?, LockTable.grant?, record]
  cases table.grantedRecord? transaction page mode with
  | none => exact .inl ⟨rfl, rfl⟩
  | some granted =>
      refine .inr ⟨_, _, rfl, rfl, ?_, ?_⟩
      · simp only [same.records]
      · simp only [same.held, same.heldPages]

theorem dropHolder (same : other.SameBooks table) (transaction : TransactionId)
    (page : PageId) :
    (other.dropHolder transaction page).2.SameBooks (table.dropHolder transaction page).2 := by
  constructor
  · unfold LockTable.dropHolder
    rw [same.records]
    cases table.records[page]? with
    | none => exact same.records
    | some record =>
        simp only
        split
        · cases record.without transaction <;> rfl
        · exact same.records
  · rw [held_dropHolder, held_dropHolder, same.held]

theorem dropAll (same : other.SameBooks table) (transaction : TransactionId)
    (pages : List PageId) :
    (other.dropAll transaction pages).2.SameBooks (table.dropAll transaction pages).2 := by
  induction pages generalizing table other with
  | nil => exact same
  | cons page pages ih => exact ih (same.dropHolder transaction page)

theorem unindex (same : other.SameBooks table) (transaction : TransactionId) (page : PageId) :
    (other.unindex transaction page).SameBooks (table.unindex transaction page) := by
  constructor
  · rw [records_unindex, records_unindex, same.records]
  · unfold LockTable.unindex
    rw [same.held]
    cases table.held[transaction]? with
    | none => exact same.held
    | some pages =>
        dsimp only
        split <;> rfl

theorem release (same : other.SameBooks table) (transaction : TransactionId) (page : PageId) :
    (other.release transaction page).2.SameBooks (table.release transaction page).2 :=
  (same.unindex transaction page).dropHolder transaction page

theorem releaseAll (same : other.SameBooks table) (transaction : TransactionId) :
    (other.releaseAll transaction).2.SameBooks (table.releaseAll transaction).2 := by
  have pages : other.pagesOf transaction = table.pagesOf transaction := by
    rw [pagesOf, pagesOf, same.heldPages]
  have erased : ({ other with held := other.held.erase transaction } : LockTable).SameBooks
      { table with held := table.held.erase transaction } := by
    constructor
    · exact same.records
    · simp only [same.held]
  rw [LockTable.releaseAll, LockTable.releaseAll, pages]
  exact erased.dropAll transaction _

end LockTable.SameBooks

namespace LockService

open LockTable (SameBooks)

variable {gone : Ticket} {service reduced : LockService} {request also : LockRequest}

/-- `ask` parks a request with the next ticket only if it cannot be granted. -/
theorem ask_parked {transaction : TransactionId} {page : PageId} {mode : LockMode} {sample : Nat}
    {after : LockService}
    (asked : service.ask transaction page mode sample = (.ok (.parked request), after)) :
    service.table.grant? transaction page mode = none ∧ ∃ bound,
      request = ⟨service.nextTicket, transaction, page, mode, (service.table.enqueue page).1, bound,
        service.clock + bound, false⟩ ∧
      after = { service with
        table := (service.table.enqueue page).2
        parked := service.parked ++ [request]
        nextTicket := service.nextTicket + 1 } := by
  unfold LockService.ask at asked
  cases granted : service.table.grant? transaction page mode with
  | some table =>
      rw [granted] at asked
      cases asked
  | none =>
      rw [granted] at asked
      cases drawn : service.range.draw sample with
      | error fault =>
          rw [drawn] at asked
          cases asked
      | ok bound =>
          rw [drawn] at asked
          cases asked
          exact ⟨rfl, bound, rfl, rfl⟩

structure Lacks (gone : Ticket) (service reduced : LockService) : Prop where
  range : reduced.range = service.range
  books : reduced.table.SameBooks service.table
  clock : reduced.clock = service.clock
  issued : gone < service.nextTicket
  tickets : reduced.nextTicket + 1 = service.nextTicket
  parked : reduced.parked.map LockRequest.unplugged =
    (service.parked.filter fun request => request.ticket != gone).map (LockRequest.seen gone)

namespace Lacks

/-! ### Finding, changing and removing requests -/

theorem find? (lacks : Lacks gone service reduced) {ticket : Ticket} (other : ticket ≠ gone) :
    (reduced.find? (Ticket.without gone ticket)).map LockRequest.unplugged =
      (service.find? ticket).map (LockRequest.seen gone) := by
  have chosen : ∀ request : LockRequest,
      decide ((request.ticket != gone) = true ∧
        ((request.seen gone).ticket == Ticket.without gone ticket) = true) =
        (request.ticket == ticket) := by
    intro request
    rw [Bool.eq_iff_iff, decide_eq_true_iff, bne_iff_ne, beq_iff_eq, beq_iff_eq]
    constructor
    · rintro ⟨own, same⟩
      exact (Ticket.without_inj own other).mp same
    · rintro rfl
      exact ⟨other, rfl⟩
  calc (reduced.find? (Ticket.without gone ticket)).map LockRequest.unplugged
      = (reduced.parked.map LockRequest.unplugged).find?
          fun request => request.ticket == Ticket.without gone ticket := by
        rw [List.find?_map]
        rfl
    _ = (service.find? ticket).map (LockRequest.seen gone) := by
        rw [lacks.parked, List.find?_map, List.find?_filter]
        exact congrArg (fun choice => (service.parked.find? choice).map (LockRequest.seen gone))
          (funext chosen)

theorem relabel {change changeToo : LockRequest → LockRequest}
    (lacks : Lacks gone service reduced) {after afterToo : LockService}
    (range : after.range = service.range) (rangeToo : afterToo.range = reduced.range)
    (books : afterToo.table.SameBooks after.table) (clock : afterToo.clock = after.clock)
    (tickets : after.nextTicket = service.nextTicket)
    (ticketsToo : afterToo.nextTicket = reduced.nextTicket)
    (parked : after.parked = service.parked.map change)
    (parkedToo : afterToo.parked = reduced.parked.map changeToo)
    (keeps : ∀ request, (change request).ticket = request.ticket)
    (unplugged : ∀ request, (changeToo request).unplugged = changeToo request.unplugged)
    (agrees : ∀ request, request.ticket ≠ gone →
      changeToo (request.seen gone) = (change request).seen gone) :
    Lacks gone after afterToo where
  range := by rw [range, rangeToo, lacks.range]
  books := books
  clock := clock
  issued := by rw [tickets]; exact lacks.issued
  tickets := by rw [tickets, ticketsToo]; exact lacks.tickets
  parked := by
    have kept : (fun request : LockRequest => request.ticket != gone) ∘ change =
        fun request => request.ticket != gone := by
      funext request
      exact congrArg (· != gone) (keeps request)
    have outside : reduced.parked.map (LockRequest.unplugged ∘ changeToo) =
        (reduced.parked.map LockRequest.unplugged).map changeToo := by
      rw [List.map_map]
      exact List.map_congr_left fun request _ => unplugged request
    rw [parkedToo, List.map_map, outside, lacks.parked, List.map_map, parked, List.filter_map, kept,
      List.map_map]
    refine List.map_congr_left fun request member => ?_
    exact agrees request (bne_iff_ne.mp (List.mem_filter.mp member).2)

theorem unpark (lacks : Lacks gone service reduced) {given givenToo : LockTable}
    (same : givenToo.SameBooks given) (other : request.ticket ≠ gone)
    (alike : also.unplugged = request.seen gone) :
    Lacks gone (service.unpark request given) (reduced.unpark also givenToo) where
  range := lacks.range
  books := ((given.sameBooks_dequeue request.page).symm.trans same).trans
    (givenToo.sameBooks_dequeue also.page)
  clock := lacks.clock
  issued := lacks.issued
  tickets := lacks.tickets
  parked := by
    have ticket := (LockRequest.resembles_of_seen alike).ticket
    have left : reduced.parked.filter (fun held => held.ticket != also.ticket) =
        reduced.parked.filter ((fun held => held.ticket != also.ticket) ∘
          LockRequest.unplugged) := rfl
    change (reduced.parked.filter _).map _ = ((service.parked.filter _).filter _).map _
    rw [left, ← List.filter_map, lacks.parked, List.filter_map, List.filter_filter,
      List.filter_filter]
    refine congrArg (List.map (LockRequest.seen gone)) (List.filter_congr fun held _ => ?_)
    rw [Bool.eq_iff_iff, Bool.and_eq_true, Bool.and_eq_true, bne_iff_ne, bne_iff_ne,
      Function.comp_apply, bne_iff_ne, ticket, and_comm]
    exact and_congr_right fun own => not_congr (Ticket.without_inj own other)

/-! ### Calls of the others -/

theorem ask (lacks : Lacks gone service reduced) (transaction : TransactionId) (page : PageId)
    (mode : LockMode) (sample : Nat) :
    (reduced.ask transaction page mode sample).1.map (LockAnswer.map LockRequest.unplugged) =
        (service.ask transaction page mode sample).1.map
          (LockAnswer.map (LockRequest.seen gone)) ∧
      Lacks gone (service.ask transaction page mode sample).2
        (reduced.ask transaction page mode sample).2 := by
  unfold LockService.ask
  rcases lacks.books.grant? transaction page mode with
    ⟨refused, refusedToo⟩ | ⟨given, givenToo, granted, grantedToo, same⟩
  · have drawn : reduced.range.draw sample = service.range.draw sample := by rw [lacks.range]
    rw [refused, refusedToo, drawn]
    cases service.range.draw sample with
    | error fault => exact ⟨rfl, lacks⟩
    | ok bound =>
        have ticket : Ticket.without gone service.nextTicket = reduced.nextTicket :=
          Nat.succ.inj ((Ticket.without_of_lt lacks.issued).trans lacks.tickets.symm)
        have later : service.nextTicket ≠ gone := (Nat.ne_of_lt lacks.issued).symm
        have alike : (⟨reduced.nextTicket, transaction, page, mode,
              (reduced.table.enqueue page).1, bound, reduced.clock + bound, false⟩ :
              LockRequest).unplugged =
            (⟨service.nextTicket, transaction, page, mode, (service.table.enqueue page).1, bound,
              service.clock + bound, false⟩ : LockRequest).seen gone := by
          rw [LockRequest.seen, LockRequest.without, LockRequest.unplugged, LockRequest.unplugged,
            ticket, lacks.clock]
        refine ⟨congrArg (fun request => Except.ok (LockAnswer.parked request)) alike, ?_⟩
        refine ⟨lacks.range, ?_, lacks.clock, Nat.lt_succ_of_lt lacks.issued,
          congrArg Nat.succ lacks.tickets, ?_⟩
        · exact ((service.table.sameBooks_enqueue page).symm.trans lacks.books).trans
            (reduced.table.sameBooks_enqueue page)
        · rw [List.map_append, lacks.parked, List.filter_append, List.map_append]
          refine congrArg _ ?_
          rw [List.filter_cons, if_pos (bne_iff_ne.mpr later), List.filter_nil]
          exact congrArg (fun request => [request]) alike
  · rw [granted, grantedToo]
    exact ⟨rfl, lacks.range, same, lacks.clock, lacks.issued, lacks.tickets, lacks.parked⟩

theorem expire (lacks : Lacks gone service reduced) (other : request.ticket ≠ gone)
    (alike : also.unplugged = request.seen gone) :
    (reduced.expire also).1 = (service.expire request).1 ∧
      Lacks gone (service.expire request).2 (reduced.expire also).2 := by
  have same := LockRequest.resembles_of_seen alike
  unfold LockService.expire
  rw [same.transaction, same.page, same.mode, same.bound]
  rcases lacks.books.grant? request.transaction request.page request.mode with
    ⟨refused, refusedToo⟩ | ⟨given, givenToo, granted, grantedToo, same⟩
  · rw [refused, refusedToo]
    exact ⟨rfl, lacks.unpark lacks.books other alike⟩
  · rw [granted, grantedToo]
    exact ⟨rfl, lacks.unpark same other alike⟩

theorem retry (lacks : Lacks gone service reduced) (other : request.ticket ≠ gone)
    (alike : also.unplugged = request.seen gone) :
    (reduced.retry also).1 = (service.retry request).1 ∧
      Lacks gone (service.retry request).2 (reduced.retry also).2 := by
  obtain ⟨ticket, transaction, page, mode, -⟩ := LockRequest.resembles_of_seen alike
  unfold LockService.retry
  rw [transaction, page, mode]
  rcases lacks.books.grant? request.transaction request.page request.mode with
    ⟨refused, refusedToo⟩ | ⟨given, givenToo, granted, grantedToo, same⟩
  · rw [refused, refusedToo]
    refine ⟨rfl, lacks.relabel rfl rfl lacks.books lacks.clock rfl rfl rfl rfl ?_ ?_ ?_⟩
    · intro held
      split <;> rfl
    · intro held
      change (if held.ticket == also.ticket then { held with signalled := false }
        else held).unplugged = if held.ticket == also.ticket then
          { held.unplugged with signalled := false } else held.unplugged
      split <;> rfl
    · intro held own
      have same : (held.seen gone).ticket = also.ticket ↔ held.ticket = request.ticket := by
        rw [ticket]
        exact Ticket.without_inj own other
      by_cases itself : held.ticket = request.ticket
      · rw [if_pos (beq_iff_eq.mpr (same.mpr itself)), if_pos (beq_iff_eq.mpr itself)]
        rfl
      · rw [if_neg fun equal => itself (same.mp (eq_of_beq equal)),
          if_neg fun equal => itself (eq_of_beq equal)]
  · rw [granted, grantedToo]
    exact ⟨rfl, lacks.unpark same other alike⟩

theorem resume (lacks : Lacks gone service reduced) {ticket : Ticket} (other : ticket ≠ gone) :
    (reduced.resume (Ticket.without gone ticket)).1.map LockRequest.unplugged =
        (service.resume ticket).1.map (LockRequest.seen gone) ∧
      Lacks gone (service.resume ticket).2 (reduced.resume (Ticket.without gone ticket)).2 := by
  have found := lacks.find? other
  unfold LockService.resume
  cases here : service.find? ticket with
  | none =>
      rw [here, Option.map_none, Option.map_eq_none_iff] at found
      rw [found]
      exact ⟨rfl, lacks⟩
  | some request =>
      rw [here, Option.map_some, Option.map_eq_some_iff] at found
      obtain ⟨also, there, alike⟩ := found
      have own : request.ticket ≠ gone := by
        rw [(mem_of_find? here).2]
        exact other
      have deadline := (LockRequest.resembles_of_seen alike).deadline
      rw [there]
      simp only [deadline, lacks.clock]
      split
      · obtain ⟨outcome, later⟩ := lacks.expire own alike
        rw [outcome]
        exact ⟨congrArg (LockOutcome.ended · _) alike, later⟩
      · obtain ⟨outcome, later⟩ := lacks.retry own alike
        rcases first : service.retry request with ⟨granted, after⟩
        rcases second : reduced.retry also with ⟨grantedToo, afterToo⟩
        rw [first, second] at outcome later
        dsimp only at outcome
        subst outcome
        cases grantedToo with
        | true => exact ⟨congrArg (LockOutcome.ended · _) alike, later⟩
        | false => exact ⟨rfl, later⟩

theorem pass (lacks : Lacks gone service reduced) (time : Nat) :
    Lacks gone { service with clock := max service.clock time }
      { reduced with clock := max reduced.clock time } :=
  ⟨lacks.range, lacks.books, congrArg (max · time) lacks.clock, lacks.issued, lacks.tickets,
    lacks.parked⟩

theorem acquire (lacks : Lacks gone service reduced) (transaction : TransactionId)
    (page : PageId) (mode : LockMode) (sample : Nat) :
    (reduced.acquire transaction page mode sample).1 =
        (service.acquire transaction page mode sample).1 ∧
      Lacks gone (service.acquire transaction page mode sample).2
        (reduced.acquire transaction page mode sample).2 := by
  obtain ⟨answers, later⟩ := lacks.ask transaction page mode sample
  unfold LockService.acquire
  rcases first : service.ask transaction page mode sample with ⟨answer, after⟩
  rcases second : reduced.ask transaction page mode sample with ⟨answerToo, afterToo⟩
  rw [first, second] at answers later
  rcases LockAnswer.cases_of_seen answers with
    ⟨fault, rfl, rfl⟩ | ⟨rfl, rfl⟩ | ⟨request, also, rfl, rfl, alike⟩
  · exact ⟨rfl, later⟩
  · exact ⟨rfl, later⟩
  · have other : request.ticket ≠ gone := by
      obtain ⟨-, bound, rfl, -⟩ := ask_parked first
      exact (Nat.ne_of_lt lacks.issued).symm
    have waited : Lacks gone (after.await request) (afterToo.await also) := by
      rw [await, await, (LockRequest.resembles_of_seen alike).deadline]
      exact later.pass request.deadline
    obtain ⟨outcome, final⟩ := waited.expire other alike
    rcases ended : (after.await request).expire request with ⟨found, last⟩
    rcases endedToo : (afterToo.await also).expire also with ⟨foundToo, lastToo⟩
    rw [ended, endedToo] at outcome final
    dsimp only at outcome
    subst outcome
    simp only [ended, endedToo]
    cases foundToo with
    | error expired => exact ⟨rfl, final⟩
    | ok granted => exact ⟨rfl, final⟩

theorem wake (lacks : Lacks gone service reduced) {after afterToo : LockService}
    {freed : PageId → Bool} (range : after.range = service.range)
    (rangeToo : afterToo.range = reduced.range) (books : afterToo.table.SameBooks after.table)
    (clock : afterToo.clock = after.clock) (tickets : after.nextTicket = service.nextTicket)
    (ticketsToo : afterToo.nextTicket = reduced.nextTicket)
    (parked : after.parked = service.parked.map (LockRequest.wake freed))
    (parkedToo : afterToo.parked = reduced.parked.map (LockRequest.wake freed)) :
    Lacks gone after afterToo := by
  refine lacks.relabel range rangeToo books clock tickets ticketsToo parked parkedToo ?_ ?_ ?_
  · intro request
    unfold LockRequest.wake
    split <;> rfl
  · intro request
    change (if freed request.page then { request with signalled := true }
      else request).unplugged = if freed request.page then
        { request.unplugged with signalled := true } else request.unplugged
    split <;> rfl
  · intro request _
    change (if freed request.page then { request.seen gone with signalled := true }
      else request.seen gone) = (if freed request.page then { request with signalled := true }
        else request).seen gone
    split <;> rfl

theorem release (lacks : Lacks gone service reduced) (tidy : service.Tidy)
    (tidyToo : reduced.Tidy) (transaction : TransactionId) (page : PageId) :
    Lacks gone (service.release transaction page) (reduced.release transaction page) := by
  have woken := tidyToo.parked_release transaction page
  rw [lacks.books.holds] at woken
  exact lacks.wake rfl rfl (lacks.books.release transaction page) lacks.clock rfl rfl
    (tidy.parked_release transaction page) woken

theorem releaseAll (lacks : Lacks gone service reduced) (tidy : service.Tidy)
    (tidyToo : reduced.Tidy) (transaction : TransactionId) :
    Lacks gone (service.releaseAll transaction) (reduced.releaseAll transaction) := by
  have woken := tidyToo.parked_releaseAll transaction
  have holds : reduced.table.holds transaction = service.table.holds transaction :=
    funext fun page => lacks.books.holds transaction page
  rw [holds] at woken
  exact lacks.wake rfl rfl (lacks.books.releaseAll transaction) lacks.clock rfl rfl
    (tidy.parked_releaseAll transaction) woken

theorem perform (lacks : Lacks gone service reduced) (tidy : service.Tidy)
    (tidyToo : reduced.Tidy) {call : LockCall} (other : call ≠ .resume gone) :
    (reduced.perform (call.without gone)).1.map LockRequest.unplugged =
        (service.perform call).1.map (LockRequest.seen gone) ∧
      Lacks gone (service.perform call).2 (reduced.perform (call.without gone)).2 := by
  cases call with
  | ask transaction page mode sample =>
      obtain ⟨answers, later⟩ := lacks.ask transaction page mode sample
      exact ⟨congrArg LockOutcome.asked answers, later⟩
  | resume ticket => exact lacks.resume fun same => other (congrArg LockCall.resume same)
  | acquire transaction page mode sample =>
      obtain ⟨outcomes, later⟩ := lacks.acquire transaction page mode sample
      exact ⟨congrArg LockOutcome.acquired outcomes, later⟩
  | release transaction page => exact ⟨rfl, lacks.release tidy tidyToo transaction page⟩
  | releaseAll transaction => exact ⟨rfl, lacks.releaseAll tidy tidyToo transaction⟩
  | pass time => exact ⟨rfl, lacks.pass time⟩

/-! ### Calls of the request -/

theorem park {transaction : TransactionId} {page : PageId} {mode : LockMode} {sample : Nat}
    {after : LockService} (queued : service.Queued)
    (asked : service.ask transaction page mode sample = (.ok (.parked request), after)) :
    Lacks request.ticket after service := by
  obtain ⟨-, bound, same, rfl⟩ := ask_parked asked
  have ticket : request.ticket = service.nextTicket := congrArg LockRequest.ticket same
  rw [ticket]
  refine ⟨rfl, (service.table.sameBooks_enqueue page).symm, rfl, Nat.lt_succ_self _, rfl, ?_⟩
  have others : service.parked.filter (fun held => held.ticket != service.nextTicket) =
      service.parked := by
    refine List.filter_eq_self.mpr fun held member => bne_iff_ne.mpr ?_
    exact Nat.ne_of_lt (queued.ticketed held member)
  rw [List.filter_append, others, List.filter_cons_of_neg (by simp [ticket]), List.filter_nil,
    List.append_nil]
  refine List.map_congr_left fun held member => ?_
  have earlier := Ticket.without_of_le (Nat.le_of_lt (queued.ticketed held member))
  rw [LockRequest.seen, LockRequest.without, earlier]

theorem expire_own (lacks : Lacks gone service reduced) (own : request.ticket = gone)
    {expired : LockTimeout} (failed : (service.expire request).1 = .error expired) :
    Lacks gone (service.expire request).2 reduced := by
  unfold LockService.expire at failed ⊢
  cases granted : service.table.grant? request.transaction request.page request.mode with
  | some table =>
      rw [granted] at failed
      cases failed
  | none =>
      refine ⟨lacks.range, (service.table.sameBooks_dequeue request.page).symm.trans lacks.books,
        lacks.clock, lacks.issued, lacks.tickets, ?_⟩
      rw [lacks.parked]
      change _ = ((service.parked.filter _).filter _).map _
      rw [List.filter_filter, own]
      simp only [Bool.and_self]

theorem retry_own (lacks : Lacks gone service reduced) (own : request.ticket = gone)
    (failed : (service.retry request).1 = false) :
    Lacks gone (service.retry request).2 reduced := by
  unfold LockService.retry at failed ⊢
  cases granted : service.table.grant? request.transaction request.page request.mode with
  | some table =>
      rw [granted] at failed
      cases failed
  | none =>
      refine lacks.relabel rfl rfl lacks.books lacks.clock rfl rfl rfl
        (List.map_id _).symm ?_ ?_ ?_
      · intro held
        split <;> rfl
      · intro held
        rfl
      · intro held other
        rw [if_neg fun same => other ((eq_of_beq same).trans own)]
        rfl

/-- A retry of the missing request that is not granted keeps `Lacks`. -/
theorem resume_own (lacks : Lacks gone service reduced)
    (failed : ∀ request, (service.resume gone).1 ≠ .ended request (.ok ())) :
    Lacks gone (service.resume gone).2 reduced := by
  unfold LockService.resume at failed ⊢
  cases found : service.find? gone with
  | none => exact lacks
  | some request =>
      have own := (mem_of_find? found).2
      rw [found] at failed
      simp only at failed ⊢
      split
      · next late =>
          rw [if_pos late] at failed
          rcases ended : service.expire request with ⟨expired | granted, after⟩
          · have later := lacks.expire_own own (congrArg Prod.fst ended)
            rwa [ended] at later
          · rw [ended] at failed
            exact absurd rfl (failed request)
      · next early =>
          rw [if_neg early] at failed
          rcases tried : service.retry request with ⟨granted | refused, after⟩
          · have later := lacks.retry_own own (congrArg Prod.fst tried)
            rwa [tried] at later
          · rw [tried] at failed
            exact absurd rfl (failed request)

end Lacks

end LockService

end RecordStore
