import RecordStore.Proofs.Lock.Waiting

set_option autoImplicit false

/-! The bound drawn for a lock wait. Each end of the range is reduced modulo `wordLimit` nanoseconds
by itself, so a bound can be drawn iff the reduced ends are in order. They are for all durations
below 584 years. -/

namespace RecordStore

namespace WaitRange

def cutLeast (range : WaitRange) : Nat := range.least.nanoseconds % wordLimit

def cutMost (range : WaitRange) : Nat := range.most.nanoseconds % wordLimit

variable {range : WaitRange}

theorem draw_ok (ordered : range.cutLeast ≤ range.cutMost) (sample : Nat) :
    range.draw sample =
      .ok (range.cutLeast + sample % (range.cutMost - range.cutLeast + 1)) :=
  if_pos ordered

theorem draw_error (crossed : range.cutMost < range.cutLeast) (sample : Nat) :
    range.draw sample = .error .emptyRange :=
  if_neg (Nat.not_le.mpr crossed)

/-- The samples draw exactly the bounds between the two ends as cut. -/
theorem exists_draw_iff (bound : Nat) :
    (∃ sample, range.draw sample = .ok bound) ↔ range.cutLeast ≤ bound ∧ bound ≤ range.cutMost := by
  constructor
  · rintro ⟨sample, drawn⟩
    rcases Nat.lt_or_ge range.cutMost range.cutLeast with crossed | ordered
    · rw [draw_error crossed] at drawn
      cases drawn
    · rw [draw_ok ordered, Except.ok.injEq] at drawn
      have small : sample % (range.cutMost - range.cutLeast + 1) <
          range.cutMost - range.cutLeast + 1 := Nat.mod_lt sample (Nat.succ_pos _)
      omega
  · rintro ⟨above, below⟩
    refine ⟨bound - range.cutLeast, ?_⟩
    rw [draw_ok (Nat.le_trans above below), Nat.mod_eq_of_lt (by omega), Except.ok.injEq]
    omega

theorem draw_error_iff (sample : Nat) :
    (∃ fault, range.draw sample = .error fault) ↔ range.cutMost < range.cutLeast := by
  constructor
  · rintro ⟨fault, broken⟩
    apply Nat.lt_of_not_le
    intro ordered
    rw [draw_ok ordered] at broken
    cases broken
  · exact fun crossed => ⟨_, draw_error crossed sample⟩

/-- `between` orders its two durations. -/
theorem nanoseconds_between (first second : Duration) :
    (between first second).least.nanoseconds = min first.nanoseconds second.nanoseconds ∧
      (between first second).most.nanoseconds = max first.nanoseconds second.nanoseconds := by
  unfold between
  split
  · next ordered => exact ⟨(Nat.min_eq_left ordered).symm, (Nat.max_eq_right ordered).symm⟩
  · next crossed =>
      have ordered := Nat.le_of_not_le crossed
      exact ⟨(Nat.min_eq_right ordered).symm, (Nat.max_eq_left ordered).symm⟩

end WaitRange

namespace LockService

variable {service : LockService} {transaction : TransactionId} {page : PageId} {mode : LockMode}

/-! ### The range stays -/

theorem range_ask (service : LockService) (transaction : TransactionId) (page : PageId)
    (mode : LockMode) (sample : Nat) :
    (service.ask transaction page mode sample).2.range = service.range := by
  unfold ask
  cases service.table.grant? transaction page mode with
  | some table => rfl
  | none => cases service.range.draw sample <;> rfl

theorem range_expire (service : LockService) (request : LockRequest) :
    (service.expire request).2.range = service.range := by
  unfold expire
  cases service.table.grant? request.transaction request.page request.mode <;> rfl

theorem range_retry (service : LockService) (request : LockRequest) :
    (service.retry request).2.range = service.range := by
  unfold retry
  cases service.table.grant? request.transaction request.page request.mode <;> rfl

theorem range_acquire (service : LockService) (transaction : TransactionId) (page : PageId)
    (mode : LockMode) (sample : Nat) :
    (service.acquire transaction page mode sample).2.range = service.range := by
  rcases service.acquire_after transaction page mode sample with same | ⟨request, -, later⟩
  · rw [same, range_ask]
  · rw [later, range_expire]
    exact service.range_ask transaction page mode sample

theorem range_perform (service : LockService) (call : LockCall) :
    (service.perform call).2.range = service.range := by
  cases call with
  | ask transaction page mode sample => exact service.range_ask transaction page mode sample
  | resume ticket =>
      change (service.resume ticket).2.range = service.range
      rcases service.resume_cases ticket with same | ⟨request, -, -, expired | retried⟩
      · rw [same]
      · rw [expired, range_expire]
      · rw [retried, range_retry]
  | acquire transaction page mode sample =>
      exact service.range_acquire transaction page mode sample
  | release transaction page => rfl
  | releaseAll transaction => rfl
  | pass time => rfl

theorem Run.range_eq {start : LockService} {history : List LockEvent}
    (run : Run start history service) : service.range = start.range := by
  induction run with
  | start => rfl
  | @step history service call earlier ih => exact (service.range_perform call).trans ih

theorem Run.range_start {range : WaitRange} {history : List LockEvent}
    (run : Run (LockService.start range) history service) : service.range = range :=
  run.range_eq

/-! ### Requests that have to wait -/

theorem grant?_of_not_grantable (barred : service.table.grantable transaction page mode = false) :
    service.table.grant? transaction page mode = none := by
  rw [LockTable.grantable, Option.isSome_eq_false_iff, Option.isNone_iff_eq_none] at barred
  rw [LockTable.grant?, barred]
  rfl

theorem ask_ok {sample bound : Nat}
    (barred : service.table.grantable transaction page mode = false)
    (drawn : service.range.draw sample = .ok bound) :
    ∃ request after, service.ask transaction page mode sample = (.ok (.parked request), after) ∧
      request.bound = bound := by
  unfold ask
  rw [grant?_of_not_grantable barred, drawn]
  exact ⟨_, _, rfl, rfl⟩

/-- If no bound can be drawn, `ask` has changed nothing. -/
theorem ask_error {sample : Nat} {fault : Fault}
    (barred : service.table.grantable transaction page mode = false)
    (broken : service.range.draw sample = .error fault) :
    service.ask transaction page mode sample = (.error fault, service) := by
  unfold ask
  rw [grant?_of_not_grantable barred, broken]

/-- `acquire` ends in a fault iff no bound can be drawn for it. -/
theorem acquire_broken_iff (barred : service.table.grantable transaction page mode = false)
    (sample : Nat) :
    (∃ fault, (service.acquire transaction page mode sample).1 = .error (.broken fault)) ↔
      ∃ fault, service.range.draw sample = .error fault := by
  unfold acquire
  cases drawn : service.range.draw sample with
  | error fault =>
      rw [ask_error barred drawn]
      exact ⟨fun _ => ⟨fault, rfl⟩, fun _ => ⟨fault, rfl⟩⟩
  | ok bound =>
      obtain ⟨request, after, parked, -⟩ := ask_ok barred drawn
      rw [parked]
      simp only [reduceCtorEq, exists_false, iff_false]
      rcases (after.await request).expire request with ⟨expired | granted, final⟩
      · rintro ⟨fault, failed⟩
        cases failed
      · rintro ⟨fault, failed⟩
        cases failed

/-- The only fault of `acquire` is that of `draw`. -/
theorem acquire_broken {sample : Nat} {fault : Fault}
    (broken : (service.acquire transaction page mode sample).1 = .error (.broken fault)) :
    fault = .emptyRange ∧ service.range.cutMost < service.range.cutLeast := by
  cases granted : service.table.grant? transaction page mode with
  | some table =>
      rw [acquire_granted granted] at broken
      cases broken
  | none =>
      unfold acquire ask at broken
      rw [granted] at broken
      rcases Nat.lt_or_ge service.range.cutMost service.range.cutLeast with crossed | ordered
      · rw [WaitRange.draw_error crossed] at broken
        cases broken
        exact ⟨rfl, crossed⟩
      · rw [WaitRange.draw_ok ordered] at broken
        simp only at broken
        split at broken
        · cases broken
        · cases broken

/-- Every sample parks the request with a bound between these. -/
def WaitsWithin (service : LockService) (transaction : TransactionId) (page : PageId)
    (mode : LockMode) (least most : Nat) : Prop :=
  ∀ sample, ∃ request after,
    service.ask transaction page mode sample = (.ok (.parked request), after) ∧
      least ≤ request.bound ∧ request.bound ≤ most

theorem waitsWithin_iff (barred : service.table.grantable transaction page mode = false)
    (least most : Nat) :
    service.WaitsWithin transaction page mode least most ↔
      service.range.cutLeast ≤ service.range.cutMost ∧ least ≤ service.range.cutLeast ∧
        service.range.cutMost ≤ most := by
  constructor
  · intro waits
    -- If some sample draws a bound, there are samples that draw the two ends.
    have within : ∀ bound, service.range.cutLeast ≤ bound → bound ≤ service.range.cutMost →
        least ≤ bound ∧ bound ≤ most := by
      intro bound above below
      obtain ⟨sample, drawn⟩ := (WaitRange.exists_draw_iff bound).mpr ⟨above, below⟩
      obtain ⟨request, after, parked, bounds⟩ := waits sample
      obtain ⟨other, later, also, rfl⟩ := ask_ok barred drawn
      cases parked.symm.trans also
      exact bounds
    have ordered : service.range.cutLeast ≤ service.range.cutMost := by
      apply Nat.le_of_not_lt
      intro crossed
      obtain ⟨request, after, parked, -⟩ := waits 0
      cases parked.symm.trans (ask_error barred (WaitRange.draw_error crossed 0))
    exact ⟨ordered, (within _ (Nat.le_refl _) ordered).1, (within _ ordered (Nat.le_refl _)).2⟩
  · rintro ⟨ordered, above, below⟩ sample
    have drawn := WaitRange.draw_ok ordered sample
    have bounds := (WaitRange.exists_draw_iff _).mp ⟨sample, drawn⟩
    obtain ⟨request, after, parked, same⟩ := ask_ok barred drawn
    rw [← same] at bounds
    exact ⟨request, after, parked, Nat.le_trans above bounds.1, Nat.le_trans bounds.2 below⟩

variable {first second : Duration} {history : List LockEvent}

/-- A barred request on a range `between` two durations is parked with a bound in that range, for
every sample, iff the longer duration modulo `wordLimit` nanoseconds is not below the shorter one.
`ask` and `acquire` end in a fault iff the two ends change their order as they are cut. -/
theorem waits_within_range_iff
    (run : Run (LockService.start (WaitRange.between first second)) history service)
    (barred : service.table.grantable transaction page mode = false) :
    (service.WaitsWithin transaction page mode (min first.nanoseconds second.nanoseconds)
        (max first.nanoseconds second.nanoseconds) ↔
      min first.nanoseconds second.nanoseconds ≤
        max first.nanoseconds second.nanoseconds % wordLimit) ∧
    ∀ sample,
      ((∃ fault, service.ask transaction page mode sample = (.error fault, service)) ↔
        max first.nanoseconds second.nanoseconds % wordLimit <
          min first.nanoseconds second.nanoseconds % wordLimit) ∧
      ((∃ fault, (service.acquire transaction page mode sample).1 = .error (.broken fault)) ↔
        max first.nanoseconds second.nanoseconds % wordLimit <
          min first.nanoseconds second.nanoseconds % wordLimit) := by
  have range := run.range_start
  have least : service.range.cutLeast =
      min first.nanoseconds second.nanoseconds % wordLimit := by
    rw [range, WaitRange.cutLeast, (WaitRange.nanoseconds_between first second).1]
  have most : service.range.cutMost =
      max first.nanoseconds second.nanoseconds % wordLimit := by
    rw [range, WaitRange.cutMost, (WaitRange.nanoseconds_between first second).2]
  constructor
  · rw [waitsWithin_iff barred, least, most]
    constructor
    · rintro ⟨ordered, above, -⟩
      exact Nat.le_trans above ordered
    · intro ordered
      have small : min first.nanoseconds second.nanoseconds < wordLimit :=
        Nat.lt_of_le_of_lt ordered (Nat.mod_lt _ (by decide))
      rw [Nat.mod_eq_of_lt small]
      exact ⟨ordered, Nat.le_refl _, Nat.mod_le _ _⟩
  · intro sample
    rw [← least, ← most, acquire_broken_iff barred, WaitRange.draw_error_iff]
    refine ⟨?_, Iff.rfl⟩
    rw [← WaitRange.draw_error_iff sample]
    cases drawn : service.range.draw sample with
    | error fault => exact ⟨fun _ => ⟨fault, rfl⟩, fun _ => ⟨fault, ask_error barred drawn⟩⟩
    | ok bound =>
        obtain ⟨request, after, parked, -⟩ := ask_ok barred drawn
        rw [parked]
        exact ⟨nofun, nofun⟩

def contested : List LockCall := [.acquire ⟨1⟩ ⟨⟨7⟩, 0⟩ .exclusive 0]

def brief : Duration := ⟨0, ⟨3, by decide⟩⟩

def short : Duration := ⟨0, ⟨5, by decide⟩⟩

def endless : Duration := ⟨18446744073, ⟨709551620, by decide⟩⟩

/-- The longer of the two durations is cut to four nanoseconds, which is enough for three. -/
theorem waits_within_range_iff_small :
    ∃ history service,
      Run (LockService.start (WaitRange.between endless brief)) history service ∧
      service.table.grantable ⟨2⟩ ⟨⟨7⟩, 0⟩ .shared = false ∧
      min endless.nanoseconds brief.nanoseconds ≤
        max endless.nanoseconds brief.nanoseconds % wordLimit ∧
      service.WaitsWithin ⟨2⟩ ⟨⟨7⟩, 0⟩ .shared (min endless.nanoseconds brief.nanoseconds)
        (max endless.nanoseconds brief.nanoseconds) := by
  have run := (@Run.start (LockService.start (WaitRange.between endless brief))).performAll
    contested
  have barred : ((LockService.start (WaitRange.between endless brief)).performAll
      contested).2.table.grantable ⟨2⟩ ⟨⟨7⟩, 0⟩ .shared = false := by
    decide +kernel
  have ordered : min endless.nanoseconds brief.nanoseconds ≤
      max endless.nanoseconds brief.nanoseconds % wordLimit := by
    decide +kernel
  exact ⟨_, _, run, barred, ordered, (waits_within_range_iff run barred).1.mpr ordered⟩

/-- With five nanoseconds for three the ends change places as they are cut, and the request ends in
a fault. With both durations past a word the bound that is drawn is shorter than either. -/
theorem waits_out_of_range :
    (∃ history service,
      Run (LockService.start (WaitRange.between short endless)) history service ∧
      service.table.grantable ⟨2⟩ ⟨⟨7⟩, 0⟩ .exclusive = false ∧
      service.ask ⟨2⟩ ⟨⟨7⟩, 0⟩ .exclusive 0 = (.error .emptyRange, service)) ∧
    ∃ history service,
      Run (LockService.start (WaitRange.between endless endless)) history service ∧
      service.table.grantable ⟨2⟩ ⟨⟨7⟩, 0⟩ .exclusive = false ∧
      ∃ sample request after,
        service.ask ⟨2⟩ ⟨⟨7⟩, 0⟩ .exclusive sample = (.ok (.parked request), after) ∧
          request.bound = 4 ∧ request.bound < endless.nanoseconds := by
  constructor
  · have run := (@Run.start (LockService.start (WaitRange.between short endless))).performAll
      contested
    have barred : ((LockService.start (WaitRange.between short endless)).performAll
        contested).2.table.grantable ⟨2⟩ ⟨⟨7⟩, 0⟩ .exclusive = false := by
      decide +kernel
    refine ⟨_, _, run, barred, ask_error barred (WaitRange.draw_error ?_ 0)⟩
    rw [run.range_start]
    decide +kernel
  · have run := (@Run.start (LockService.start (WaitRange.between endless endless))).performAll
      contested
    have barred : ((LockService.start (WaitRange.between endless endless)).performAll
        contested).2.table.grantable ⟨2⟩ ⟨⟨7⟩, 0⟩ .exclusive = false := by
      decide +kernel
    have range := run.range_start
    have reachable : (WaitRange.between endless endless).cutLeast ≤ 4 ∧
        4 ≤ (WaitRange.between endless endless).cutMost := by
      decide +kernel
    rw [← range] at reachable
    obtain ⟨sample, drawn⟩ := (WaitRange.exists_draw_iff 4).mpr reachable
    obtain ⟨request, after, parked, bound⟩ := ask_ok barred drawn
    exact ⟨_, _, run, barred, sample, request, after, parked, bound, by rw [bound]; decide⟩

end LockService

end RecordStore
