import RecordStore.Proofs.Lock.Service

set_option autoImplicit false

/-! `Holdings` is the map of modes granted and not released since. After any run of calls the
queries of the lock table answer by it, and a request is granted at once iff no mode of another
transaction bars it. -/

namespace RecordStore

inductive LockCall where
  | ask (transaction : TransactionId) (page : PageId) (mode : LockMode) (sample : Nat)
  | resume (ticket : Ticket)
  | acquire (transaction : TransactionId) (page : PageId) (mode : LockMode) (sample : Nat)
  | release (transaction : TransactionId) (page : PageId)
  | releaseAll (transaction : TransactionId)
  | pass (time : Nat)
  deriving DecidableEq, Repr

inductive LockOutcome where
  | asked (answer : Except Fault LockAnswer)
  | ended (request : LockRequest) (outcome : Except LockTimeout Unit)
  | acquired (outcome : Except LockFailure Unit)
  | silent

structure LockEvent where
  call : LockCall
  outcome : LockOutcome

namespace LockService

/-- A parked request is tried again, after a signal, at its deadline, or at any other time. -/
def resume (service : LockService) (ticket : Ticket) : LockOutcome × LockService :=
  match service.find? ticket with
  | none => (.silent, service)
  | some request =>
      if request.deadline ≤ service.clock then
        let (outcome, service) := service.expire request
        (.ended request outcome, service)
      else
        match service.retry request with
        | (true, service) => (.ended request (.ok ()), service)
        | (false, service) => (.silent, service)

def perform (service : LockService) : LockCall → LockOutcome × LockService
  | .ask transaction page mode sample =>
      let (answer, service) := service.ask transaction page mode sample
      (.asked answer, service)
  | .resume ticket => service.resume ticket
  | .acquire transaction page mode sample =>
      let (outcome, service) := service.acquire transaction page mode sample
      (.acquired outcome, service)
  | .release transaction page => (.silent, service.release transaction page)
  | .releaseAll transaction => (.silent, service.releaseAll transaction)
  | .pass time => (.silent, { service with clock := max service.clock time })

inductive Run (start : LockService) : List LockEvent → LockService → Prop where
  | start : Run start [] start
  | step {history : List LockEvent} {service : LockService} (call : LockCall) :
      Run start history service →
      Run start (history ++ [⟨call, (service.perform call).1⟩]) (service.perform call).2

def performAll (service : LockService) : List LockCall → List LockEvent × LockService
  | [] => ([], service)
  | call :: calls =>
      let rest := (service.perform call).2.performAll calls
      (⟨call, (service.perform call).1⟩ :: rest.1, rest.2)

theorem Run.performAll {start service : LockService} {history : List LockEvent}
    (run : Run start history service) (calls : List LockCall) :
    Run start (history ++ (service.performAll calls).1) (service.performAll calls).2 := by
  induction calls generalizing history service with
  | nil => rwa [LockService.performAll, List.append_nil]
  | cons call calls ih =>
      have later := ih (run.step call)
      rwa [List.append_assoc] at later

/-! ### Runs in parts -/

variable {start middle service : LockService} {history earlier later : List LockEvent}

theorem performAll_append (service : LockService) (calls others : List LockCall) :
    service.performAll (calls ++ others) =
      ((service.performAll calls).1 ++ ((service.performAll calls).2.performAll others).1,
        ((service.performAll calls).2.performAll others).2) := by
  induction calls generalizing service with
  | nil => rfl
  | cons call calls ih =>
      rw [List.cons_append, performAll, ih]
      rfl

theorem length_performAll (service : LockService) (calls : List LockCall) :
    (service.performAll calls).1.length = calls.length := by
  induction calls generalizing service with
  | nil => rfl
  | cons call calls ih => exact congrArg Nat.succ (ih (service.perform call).2)

theorem Run.performAll_eq (run : Run start history service) :
    start.performAll (history.map LockEvent.call) = (history, service) := by
  induction run with
  | start => rfl
  | step call earlier ih =>
      rw [List.map_append, performAll_append, ih]
      rfl

theorem Run.append (first : Run start earlier middle) (second : Run middle later service) :
    Run start (earlier ++ later) service := by
  induction second with
  | start => rwa [List.append_nil]
  | step call later ih =>
      rw [← List.append_assoc]
      exact ih.step call

theorem Run.split (run : Run start (earlier ++ later) service) :
    ∃ middle, Run start earlier middle ∧ Run middle later service := by
  have parts := run.performAll_eq
  rw [List.map_append, performAll_append, Prod.mk.injEq] at parts
  have length : (start.performAll (earlier.map LockEvent.call)).1.length = earlier.length := by
    rw [length_performAll, List.length_map]
  obtain ⟨front, back⟩ := List.append_inj parts.1 length
  have first := (@Run.start start).performAll (earlier.map LockEvent.call)
  have second := (@Run.start (start.performAll (earlier.map LockEvent.call)).2).performAll
    (later.map LockEvent.call)
  rw [List.nil_append, front] at first
  rw [List.nil_append, back, parts.2] at second
  exact ⟨_, first, second⟩

theorem Run.cons {event : LockEvent} (run : Run start (event :: later) service) :
    (start.perform event.call).1 = event.outcome ∧
      Run (start.perform event.call).2 later service := by
  have parts := run.performAll_eq
  rw [List.map_cons, LockService.performAll, Prod.mk.injEq, List.cons.injEq] at parts
  have rest := (@Run.start (start.perform event.call).2).performAll (later.map LockEvent.call)
  rw [List.nil_append, parts.1.2, parts.2] at rest
  exact ⟨congrArg LockEvent.outcome parts.1.1, rest⟩

end LockService

/-! ### The modes that have been granted -/

/-- The mode in which each transaction holds each page, if it does. -/
abbrev Holdings := TransactionId → PageId → Option LockMode

namespace Holdings

def none : Holdings := fun _ _ => Option.none

/-- The mode held after a grant is the stronger of it and the former one. -/
def grant (holdings : Holdings) (transaction : TransactionId) (page : PageId)
    (mode : LockMode) : Holdings :=
  fun other place =>
    if other = transaction ∧ place = page then
      some (LockMode.raise (holdings transaction page) mode)
    else holdings other place

def release (holdings : Holdings) (transaction : TransactionId) (page : PageId) : Holdings :=
  fun other place =>
    if other = transaction ∧ place = page then Option.none else holdings other place

def releaseAll (holdings : Holdings) (transaction : TransactionId) : Holdings :=
  fun other place => if other = transaction then Option.none else holdings other place

def record (holdings : Holdings) : LockEvent → Holdings
  | ⟨.ask transaction page mode _, .asked (.ok .granted)⟩ =>
      holdings.grant transaction page mode
  | ⟨.resume _, .ended request (.ok ())⟩ =>
      holdings.grant request.transaction request.page request.mode
  | ⟨.acquire transaction page mode _, .acquired (.ok ())⟩ =>
      holdings.grant transaction page mode
  | ⟨.release transaction page, _⟩ => holdings.release transaction page
  | ⟨.releaseAll transaction, _⟩ => holdings.releaseAll transaction
  | _ => holdings

def after (history : List LockEvent) : Holdings := history.foldl record none

theorem after_append (history : List LockEvent) (event : LockEvent) :
    after (history ++ [event]) = (after history).record event := by
  rw [after, after, List.foldl_append]
  rfl

/-- No other transaction holds a mode on the page that bars this one. -/
def Free (holdings : Holdings) (transaction : TransactionId) (page : PageId) (mode : LockMode) :
    Prop :=
  ∀ other, other ≠ transaction → ¬ LockMode.bars (holdings other page) mode

/-- Two transactions hold one page only if both share it. -/
def Compatible (holdings : Holdings) : Prop :=
  ∀ first second page mode other, first ≠ second → holdings first page = some mode →
    holdings second page = some other → mode = .shared ∧ other = .shared

end Holdings

namespace LockTable

/-- All queries of the lock table answer as these modes say. -/
structure Reports (table : LockTable) (holdings : Holdings) : Prop where
  mode : ∀ page mode, table.mode? page = some mode ↔
    ∃ transaction, holdings transaction page = some mode
  holders : ∀ page transaction, transaction ∈ table.holders page ↔
    (holdings transaction page).isSome
  ascendingHolders : ∀ page, (table.holders page).Pairwise fun left right =>
    compare left right = .lt
  holds : ∀ transaction page, table.holds transaction page = (holdings transaction page).isSome
  pages : ∀ transaction page, page ∈ table.pagesOf transaction ↔
    (holdings transaction page).isSome
  ascendingPages : ∀ transaction, (table.pagesOf transaction).Pairwise fun left right =>
    compare left right = .lt

variable {table : LockTable}

theorem mem_holders_iff (table : LockTable) (page : PageId) (transaction : TransactionId) :
    transaction ∈ table.holders page ↔ (table.modeOf transaction page).isSome := by
  rw [← holds_eq, holders, holds]
  cases table.records[page]? with
  | none => simp
  | some record =>
      cases record with
      | shared holders =>
          change transaction ∈ holders.toList ↔ _
          rw [Std.ExtTreeSet.mem_toList, ← Std.ExtTreeSet.contains_iff_mem]
          rfl
      | exclusive holder =>
          change transaction ∈ [holder] ↔ (holder == transaction) = true
          rw [List.mem_singleton, beq_iff_eq, eq_comm]

theorem ascending_holders (table : LockTable) (page : PageId) :
    (table.holders page).Pairwise fun left right => compare left right = .lt := by
  rw [holders]
  cases table.records[page]? with
  | none => exact .nil
  | some record =>
      cases record with
      | shared holders => exact Std.ExtTreeSet.ordered_toList
      | exclusive holder => exact List.pairwise_singleton _ _

theorem mode?_eq_some_iff (consistent : table.Consistent) (page : PageId) (mode : LockMode) :
    table.mode? page = some mode ↔
      ∃ transaction, table.modeOf transaction page = some mode := by
  rw [mode?]
  cases present : table.records[page]? with
  | none => simp [modeOf_of_vacant present]
  | some record =>
      simp only [modeOf_of_record present, LockRecord.modeOf, Option.map_some, Option.some.injEq]
      constructor
      · rintro rfl
        obtain ⟨holder, held⟩ := consistent.inhabited page (by rw [present]; rfl)
        rw [modeOf_of_record present, LockRecord.modeOf] at held
        by_cases holding : record.holds holder
        · exact ⟨holder, if_pos holding⟩
        · rw [if_neg holding] at held
          cases held
      · rintro ⟨transaction, held⟩
        split at held
        · exact Option.some.inj held
        · cases held

theorem Consistent.reports (consistent : table.Consistent) : table.Reports table.modeOf where
  mode := mode?_eq_some_iff consistent
  holders page transaction := mem_holders_iff table page transaction
  ascendingHolders := table.ascending_holders
  holds := table.holds_eq
  pages := mem_pagesOf_iff consistent
  ascendingPages _ := Std.ExtTreeSet.ordered_toList

theorem compatible_modeOf (table : LockTable) : Holdings.Compatible table.modeOf := by
  intro first second page mode other different held heldToo
  have shared : ∀ {left right : TransactionId} {strong : LockMode}, left ≠ right →
      table.modeOf left page = some strong → (table.modeOf right page).isSome →
      strong = .shared := by
    intro left right strong apart strongly also
    cases strong with
    | shared => rfl
    | exclusive => exact absurd (alone_of_exclusive strongly also).symm apart
  constructor
  · exact shared different held (by rw [heldToo]; rfl)
  · exact shared different.symm heldToo (by rw [held]; rfl)

/-! ### One call -/

structure Realizes (table : LockTable) (holdings : Holdings) : Prop where
  consistent : table.Consistent
  modes : table.modeOf = holdings

namespace Realizes

variable {holdings : Holdings}

theorem of_same {other : LockTable} (realizes : table.Realizes holdings)
    (records : other.records = table.records) (held : other.held = table.held) :
    other.Realizes holdings := by
  constructor
  · exact realizes.consistent.of_same records held
  · rw [← realizes.modes]
    funext transaction page
    exact modeOf_of_same records transaction page

theorem grant {granted : LockTable} {transaction : TransactionId} {page : PageId}
    {mode : LockMode} (realizes : table.Realizes holdings)
    (agreed : table.grant? transaction page mode = some granted) :
    granted.Realizes (holdings.grant transaction page mode) := by
  constructor
  · exact realizes.consistent.grant? agreed
  · rw [← realizes.modes]
    funext other place
    exact modeOf_grant? agreed other place

theorem release (realizes : table.Realizes holdings) (transaction : TransactionId)
    (page : PageId) :
    (table.release transaction page).2.Realizes (holdings.release transaction page) := by
  constructor
  · exact realizes.consistent.release
  · rw [← realizes.modes]
    funext other place
    exact modeOf_release other place

theorem releaseAll (realizes : table.Realizes holdings) (transaction : TransactionId) :
    (table.releaseAll transaction).2.Realizes (holdings.releaseAll transaction) := by
  constructor
  · exact realizes.consistent.releaseAll
  · rw [← realizes.modes]
    funext other place
    exact modeOf_releaseAll realizes.consistent other place

theorem dequeue (realizes : table.Realizes holdings) (page : PageId) :
    (table.dequeue page).Realizes holdings :=
  realizes.of_same (table.records_dequeue page).1 (table.records_dequeue page).2

theorem granted_iff (realizes : table.Realizes holdings) (transaction : TransactionId)
    (page : PageId) (mode : LockMode) :
    (table.grant? transaction page mode).isSome ↔ holdings.Free transaction page mode := by
  rw [← realizes.modes]
  exact grant?_isSome_iff realizes.consistent transaction page mode

end Realizes

end LockTable

namespace LockService

variable {service : LockService} {holdings : Holdings}

theorem realizes_ask (realizes : service.table.Realizes holdings) (transaction : TransactionId)
    (page : PageId) (mode : LockMode) (sample : Nat) :
    (service.ask transaction page mode sample).2.table.Realizes
      (holdings.record ⟨.ask transaction page mode sample,
        .asked (service.ask transaction page mode sample).1⟩) := by
  unfold ask
  cases granted : service.table.grant? transaction page mode with
  | some table => exact realizes.grant granted
  | none =>
      cases service.range.draw sample with
      | error fault => exact realizes
      | ok bound =>
          obtain ⟨records, held⟩ := service.table.records_enqueue page
          exact realizes.of_same records held

theorem realizes_expire (realizes : service.table.Realizes holdings) (ticket : Ticket)
    (request : LockRequest) :
    (service.expire request).2.table.Realizes
      (holdings.record ⟨.resume ticket, .ended request (service.expire request).1⟩) := by
  unfold expire
  cases granted : service.table.grant? request.transaction request.page request.mode with
  | some table => exact (realizes.grant granted).dequeue request.page
  | none => exact realizes.dequeue request.page

theorem realizes_resume (realizes : service.table.Realizes holdings) (ticket : Ticket) :
    (service.resume ticket).2.table.Realizes
      (holdings.record ⟨.resume ticket, (service.resume ticket).1⟩) := by
  unfold resume
  cases service.find? ticket with
  | none => exact realizes
  | some request =>
      by_cases ended : request.deadline ≤ service.clock
      · simp only [if_pos ended]
        exact realizes_expire realizes ticket request
      · simp only [if_neg ended, retry]
        cases granted : service.table.grant? request.transaction request.page request.mode with
        | some table => exact (realizes.grant granted).dequeue request.page
        | none => exact realizes

theorem realizes_acquire (realizes : service.table.Realizes holdings)
    (transaction : TransactionId) (page : PageId) (mode : LockMode) (sample : Nat) :
    (service.acquire transaction page mode sample).2.table.Realizes
      (holdings.record ⟨.acquire transaction page mode sample,
        .acquired (service.acquire transaction page mode sample).1⟩) := by
  cases granted : service.table.grant? transaction page mode with
  | some table =>
      rw [acquire_granted granted]
      exact realizes.grant granted
  | none =>
      obtain ⟨failure, after, refused, records, held⟩ := acquire_refused granted sample
      rw [refused]
      exact realizes.of_same records held

/-- The modes held after a call are determined by its outcome. -/
theorem realizes_perform (realizes : service.table.Realizes holdings) (call : LockCall) :
    (service.perform call).2.table.Realizes
      (holdings.record ⟨call, (service.perform call).1⟩) := by
  cases call with
  | ask transaction page mode sample => exact realizes_ask realizes transaction page mode sample
  | resume ticket => exact realizes_resume realizes ticket
  | acquire transaction page mode sample =>
      exact realizes_acquire realizes transaction page mode sample
  | release transaction page => exact realizes.release transaction page
  | releaseAll transaction => exact realizes.releaseAll transaction
  | pass time => exact realizes

/-! ### Runs -/

variable {start : LockService} {history : List LockEvent}

theorem realizes_start (range : WaitRange) :
    (LockService.start range).table.Realizes Holdings.none := by
  constructor
  · exact LockTable.Consistent.empty
  · funext transaction page
    exact LockTable.modeOf_of_vacant Std.ExtTreeMap.getElem?_empty transaction

theorem Run.realizes {range : WaitRange} (run : Run (LockService.start range) history service) :
    service.table.Realizes (Holdings.after history) := by
  induction run with
  | start => exact realizes_start range
  | step call earlier ih =>
      rw [Holdings.after_append]
      exact realizes_perform ih call

theorem ask_granted_iff (service : LockService) (transaction : TransactionId) (page : PageId)
    (mode : LockMode) (sample : Nat) :
    (service.ask transaction page mode sample).1 = .ok .granted ↔
      (service.table.grant? transaction page mode).isSome := by
  unfold ask
  cases service.table.grant? transaction page mode with
  | some table => simp
  | none => cases service.range.draw sample <;> simp

theorem acquire_ok_iff (service : LockService) (transaction : TransactionId) (page : PageId)
    (mode : LockMode) (sample : Nat) :
    (service.acquire transaction page mode sample).1 = .ok () ↔
      (service.table.grant? transaction page mode).isSome := by
  cases granted : service.table.grant? transaction page mode with
  | some table =>
      rw [acquire_granted granted]
      exact ⟨fun _ => rfl, fun _ => rfl⟩
  | none =>
      obtain ⟨failure, after, refused, -⟩ := acquire_refused granted sample
      rw [refused]
      constructor
      · intro done
        cases done
      · intro some
        cases some

/-- After any run, all queries of the lock table answer with the modes granted and not released
since. These are compatible, and a request is granted at once iff no mode of another transaction
bars it. -/
theorem reports_granted_modes {range : WaitRange}
    (run : Run (LockService.start range) history service) :
    service.table.Reports (Holdings.after history) ∧ (Holdings.after history).Compatible ∧
      ∀ transaction page mode sample,
        ((service.ask transaction page mode sample).1 = .ok .granted ↔
          (Holdings.after history).Free transaction page mode) ∧
        ((service.acquire transaction page mode sample).1 = .ok () ↔
          (Holdings.after history).Free transaction page mode) := by
  have realizes := run.realizes
  refine ⟨?_, ?_, ?_⟩
  · rw [← realizes.modes]
    exact realizes.consistent.reports
  · rw [← realizes.modes]
    exact service.table.compatible_modeOf
  · intro transaction page mode sample
    have granted := realizes.granted_iff transaction page mode
    constructor
    · rw [ask_granted_iff, granted]
    · rw [acquire_ok_iff, granted]

/-- Two readers, of whom the first asks for exclusive mode and is parked until the second releases.
A third transaction times out. -/
def upgrade : List LockCall :=
  [.ask ⟨1⟩ ⟨⟨7⟩, 0⟩ .shared 0, .acquire ⟨2⟩ ⟨⟨7⟩, 0⟩ .shared 0,
    .ask ⟨1⟩ ⟨⟨7⟩, 0⟩ .exclusive 5, .acquire ⟨3⟩ ⟨⟨7⟩, 0⟩ .exclusive 0,
    .releaseAll ⟨2⟩, .resume 0]

theorem reports_granted_modes_small :
    ∃ history service, Run (LockService.start WaitRange.standard) history service ∧
      history.map LockEvent.call = upgrade ∧
      (service.table.Reports (Holdings.after history) ∧
        (Holdings.after history).Compatible ∧
        ∀ transaction page mode sample,
          ((service.ask transaction page mode sample).1 = .ok .granted ↔
            (Holdings.after history).Free transaction page mode) ∧
          ((service.acquire transaction page mode sample).1 = .ok () ↔
            (Holdings.after history).Free transaction page mode)) ∧
      Holdings.after history ⟨1⟩ ⟨⟨7⟩, 0⟩ = some .exclusive ∧
      Holdings.after history ⟨2⟩ ⟨⟨7⟩, 0⟩ = none := by
  have run := (@Run.start (LockService.start WaitRange.standard)).performAll upgrade
  refine ⟨_, _, run, rfl, reports_granted_modes run, ?_, ?_⟩
  · decide +kernel
  · decide +kernel

end LockService

end RecordStore
