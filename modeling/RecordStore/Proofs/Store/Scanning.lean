import RecordStore.Proofs.Store.Rescan

set_option autoImplicit false

/-! Scans with any operations between their steps. A scan visits the pages that the table had when
it was opened, in order, yields of each page the view of its transaction when the page is loaded,
and is complete at its end. After its end, or after an error, it yields nothing. -/

namespace RecordStore

/-! ### Rows in the order of their records -/

theorem RecordId.lt_of_order {left right : RecordId} (tables : left.page.table = right.page.table)
    (order : left.page.number.toNat < right.page.number.toNat ∨
      left.page.number = right.page.number ∧ left.slot < right.slot) :
    compare left right = .lt := by
  rw [RecordId.compare_eq_then, PageId.compare_eq_then, tables, Std.compare_self]
  rcases order with lower | ⟨same, slots⟩
  · rw [Ordering.then_eq_lt]
    exact .inl (Std.compare_eq_lt.mpr lower)
  · rw [same, Std.compare_self]
    exact Nat.compare_eq_lt.mpr slots

def Precedes (left right : SeenRow) : Prop :=
  ∃ before after, left.1 = some before ∧ right.1 = some after ∧ compare before after = .lt

def Placed (id : TableId) (bound : Nat) (rows : List SeenRow) : Prop :=
  ∀ row ∈ rows, ∃ record : RecordId, row.1 = some record ∧ record.page.table = id ∧
    record.page.number.toNat < bound

namespace Slots

variable {id : TableId} {number : Nat} {page : PageId}

theorem pairwise_rows (slots : Slots) (page : PageId) : (slots.rows page).Pairwise Precedes := by
  refine (slots.pairwise_rowsFrom 0).imp_of_mem ?_
  intro left right leftMember rightMember ordered
  obtain ⟨before, placed⟩ := place_of_mem_rows leftMember
  obtain ⟨after, alsoPlaced⟩ := place_of_mem_rows rightMember
  exact ⟨_, _, placed, alsoPlaced,
    RecordId.lt_of_order rfl (.inr ⟨rfl, ordered before after placed alsoPlaced⟩)⟩

/-- Rows of later pages come behind those of earlier ones. -/
theorem pairwise_append {rows : List SeenRow} (ordered : rows.Pairwise Precedes)
    (placed : Placed page.table page.number.toNat rows) (slots : Slots) :
    (rows ++ slots.rows page).Pairwise Precedes := by
  refine List.pairwise_append.mpr ⟨ordered, slots.pairwise_rows page, ?_⟩
  intro left leftMember right rightMember
  obtain ⟨record, leftPlace, table, below⟩ := placed left leftMember
  obtain ⟨slot, rightPlace⟩ := place_of_mem_rows rightMember
  exact ⟨_, _, leftPlace, rightPlace, RecordId.lt_of_order table (.inl below)⟩

theorem placed_append {rows : List SeenRow} {bound : Nat} (placed : Placed page.table bound rows)
    (reached : bound ≤ page.number.toNat) (slots : Slots) :
    Placed page.table (page.number.toNat + 1) (rows ++ slots.rows page) := by
  intro row member
  rcases List.mem_append.mp member with earlier | here
  · obtain ⟨record, place, table, below⟩ := placed row earlier
    exact ⟨record, place, table, by omega⟩
  · obtain ⟨slot, place⟩ := place_of_mem_rows here
    exact ⟨_, place, rfl, Nat.lt_succ_self _⟩

end Slots

theorem Placed.mono {id : TableId} {bound further : Nat} {rows : List SeenRow}
    (placed : Placed id bound rows) (above : bound ≤ further) : Placed id further rows := by
  intro row member
  obtain ⟨record, place, table, below⟩ := placed row member
  exact ⟨record, place, table, Nat.lt_of_lt_of_le below above⟩

/-! ### One step of a scan -/

namespace BareScan

variable {bare : Bare} {transaction : TransactionId} {id : TableId} {scan : BareScan}
variable {count number : Nat} {rows : List SeenRow}

def yielded : Option (Except Failure SeenRow) → List SeenRow
  | some (.ok row) => [row]
  | _ => []

structure Exhausted (scan : BareScan) : Prop where
  unbuffered : scan.buffered = []
  none : scan.ahead.length = 0

theorem Step.exhausted {result : Option (Except Failure SeenRow) × BareScan × Bare}
    (step : Step scan bare result) (halts : Halts result.1) :
    result.2.1.Exhausted := by
  cases step with
  | hand held => exact halts.elim
  | load unbuffered passes total visited taken => exact halts.elim
  | finish unbuffered passes => exact ⟨rfl, rfl⟩
  | fail unbuffered ahead halted => exact ⟨rfl, halted halts⟩

theorem Exhausted.next (exhausted : scan.Exhausted) (bare : Bare) :
    (scan.next bare).1 = .none ∧ (scan.next bare).2.1.Exhausted := by
  rw [BareScan.next, exhausted.unbuffered, exhausted.none]
  exact ⟨rfl, rfl, rfl⟩

structure Ascends (scan : BareScan) (count : Nat) (rows : List SeenRow) : Prop where
  ordered : (rows ++ scan.buffered).Pairwise Precedes
  ahead : scan.ahead.length = 0 ∨ (scan.ahead.first + scan.ahead.length ≤ count ∧
    Placed scan.table.id scan.ahead.first (rows ++ scan.buffered))

theorem Ascends.step {result : Option (Except Failure SeenRow) × BareScan × Bare}
    (ascends : scan.Ascends count rows) (small : count < UInt32.size)
    (step : Step scan bare result) : result.2.1.Ascends count (rows ++ yielded result.1) := by
  obtain ⟨ordered, ahead⟩ := ascends
  cases step with
  | @hand row rest held =>
      have same : rows ++ [row] ++ rest = rows ++ scan.buffered := by
        rw [held, List.append_assoc]
        rfl
      exact ⟨same.symm ▸ ordered, same.symm ▸ ahead⟩
  | @load number length row rest after slots unbuffered passes total visited taken =>
      rw [unbuffered, List.append_nil] at ordered ahead
      have same : rows ++ [row] ++ rest =
          rows ++ slots.rows (scan.table.page (UInt32.ofNat number)) := by
        rw [taken, List.append_assoc]
        rfl
      have above := passes.reached
      rcases ahead with none | ⟨within, placed⟩
      · omega
      · have numberIs : (scan.table.page (UInt32.ofNat number)).number.toNat = number :=
          UInt32.toNat_ofNat_of_lt' (by omega)
        have next := Slots.placed_append placed (numberIs.symm ▸ above) slots
        rw [numberIs] at next
        refine ⟨?_, .inr ⟨Nat.le_trans (Nat.le_of_eq total) within, same.symm ▸ next⟩⟩
        refine same.symm ▸ Slots.pairwise_append ordered ?_ slots
        rw [numberIs]
        exact placed.mono above
  | finish unbuffered passes =>
      have same : rows ++ yielded none ++ [] = rows ++ scan.buffered := by
        rw [unbuffered, List.append_assoc]
        rfl
      exact ⟨same.symm ▸ ordered, .inl rfl⟩
  | @fail failure forth after unbuffered forward halted =>
      have same : rows ++ yielded (some (.error failure)) ++ [] = rows ++ scan.buffered := by
        rw [unbuffered, List.append_assoc]
        rfl
      refine ⟨same.symm ▸ ordered, ?_⟩
      rcases ahead with none | ⟨within, placed⟩
      · have spent : forth.length = 0 := by omega
        exact .inl spent
      · refine forward.imp_right ?_
        rintro ⟨above, total⟩
        exact ⟨Nat.le_trans (Nat.le_of_eq total) within, same.symm ▸ placed.mono above⟩

structure Covers (scan : BareScan) (count : Nat) (known : PageId → List SeenRow → Prop)
    (rows : List SeenRow) (number : Nat) : Prop where
  ahead : (scan.ahead.first = number ∧ scan.ahead.first + scan.ahead.length = count) ∨
    (number = count ∧ scan.ahead.length = 0)
  covered : ∀ earlier, earlier < number → ∃ shown,
    known (scan.table.page (UInt32.ofNat earlier)) shown ∧ shown ⊆ rows ++ scan.buffered

/-- A scan at its end covers all its pages. -/
theorem Covers.complete {known : PageId → List SeenRow → Prop}
    (covers : scan.Covers count known rows number) (exhausted : scan.Exhausted) :
    number = count := by
  have := exhausted.none
  rcases covers.ahead with ⟨first, total⟩ | ⟨last, -⟩ <;> omega

section Covers

variable {known further : PageId → List SeenRow → Prop}
  (covers : scan.Covers count known rows number)
  (more : ∀ page shown, known page shown → further page shown)

include covers more

theorem Covers.passed {after : Bare} {last earlier : Nat} (unbuffered : scan.buffered = [])
    (passes : scan.Passes bare after last)
    (seen : ∀ page slots, Bare.Visited bare after scan.transaction page slots →
      further page (slots.rows page))
    (below : earlier < number ∨ scan.ahead.first ≤ earlier ∧ earlier < last)
    (others : List SeenRow) :
    ∃ shown, further (scan.table.page (UInt32.ofNat earlier)) shown ∧ shown ⊆ rows ++ others := by
  rcases below with below | ⟨above, below⟩
  · obtain ⟨shown, already, subset⟩ := covers.covered earlier below
    rw [unbuffered, List.append_nil] at subset
    exact ⟨shown, more _ _ already, List.Subset.trans subset (List.subset_append_left _ _)⟩
  · obtain ⟨slots, visited, empty⟩ := passes.empty earlier above below
    exact ⟨_, seen _ _ visited, empty ▸ List.nil_subset _⟩

/-- A step that does not fail passes pages whose rows are then known. -/
theorem Covers.step {result : Option (Except Failure SeenRow) × BareScan × Bare}
    (step : Step scan bare result)
    (seen : ∀ page slots, Bare.Visited bare result.2.2 scan.transaction page slots →
      further page (slots.rows page))
    (sound : ∀ failure, result.1 ≠ some (.error failure)) :
    ∃ reached, result.2.1.Covers count further (rows ++ yielded result.1) reached := by
  have ahead := covers.ahead
  cases step with
  | @hand row rest held =>
      refine ⟨number, ahead, fun earlier below => ?_⟩
      obtain ⟨shown, already, subset⟩ := covers.covered earlier below
      refine ⟨shown, more _ _ already, ?_⟩
      rwa [held, ← List.singleton_append, ← List.append_assoc] at subset
  | @load last length row rest after slots unbuffered passes total visited taken =>
      have above := passes.reached
      have within : last + 1 + length = count := by omega
      refine ⟨last + 1, .inl ⟨rfl, within⟩, fun earlier below => ?_⟩
      rw [List.append_assoc]
      by_cases here : earlier = last
      · subst here
        exact ⟨_, seen _ _ visited, taken ▸ List.subset_append_right _ _⟩
      · exact covers.passed more unbuffered passes seen (by omega) _
  | finish unbuffered passes =>
      refine ⟨count, .inr ⟨rfl, rfl⟩, fun earlier below => ?_⟩
      rw [List.append_assoc]
      exact covers.passed more unbuffered passes seen (by omega) _
  | fail unbuffered forward halted => exact absurd rfl (sound _)

end Covers

end BareScan

/-! ### From the opening on -/

namespace Event

variable {name : Nat} {event : Event}

def Halts (name : Nat) (event : Event) : Prop :=
  ∃ outcome, BareScan.Halts outcome ∧ event = ⟨.next name, .scanned outcome⟩

theorem rows_next (name : Nat) (events : List Event)
    (outcome : Option (Except Failure SeenRow)) :
    rows name (events ++ [⟨.next name, .scanned outcome⟩]) =
      rows name events ++ BareScan.yielded outcome := by
  rw [rows, rows, List.filterMap_append]
  congr 1
  rcases outcome with - | (failure | row)
  · rfl
  · rfl
  · exact List.filterMap_cons_some (if_pos rfl)

theorem rows_other (different : event.operation ≠ .next name) (events : List Event) :
    rows name (events ++ [event]) = rows name events := by
  rw [rows, rows, List.filterMap_append,
    List.filterMap_cons_none (row?_other different event.answer)]
  exact List.append_nil _

end Event

namespace System

variable {start before opened current system : System} {history events : List Event}
variable {name count : Nat} {transaction : TransactionId} {id : TableId} {opening : Operation}
variable {scan : BareScan}

/-- Any `Ordinary` operation but opening the scan again. -/
def Ongoing (name : Nat) (operation : Operation) : Prop :=
  operation.Ordinary ∧ operation.Continues name

structure Scans (system : System) (name : Nat) (transaction : TransactionId) (id : TableId)
    (scan : BareScan) : Prop where
  found : system.bare.scans name = some scan
  transactionIs : scan.transaction = transaction
  tableIs : scan.table.id = id

theorem Scans.perform_next (scans : system.Scans name transaction id scan)
    (coherent : system.Coherent) :
    Follows (system.perform (.next name))
      (system.bare.stepped name (scan.next system.store.bare)) := by
  have follows : Follows (system.perform (.next name)) (system.bare.perform (.next name)) :=
    coherent.follows fun _ _ _ same => by cases same
  simp only [BareSystem.perform, scans.found] at follows
  exact follows

theorem Scans.next (scans : system.Scans name transaction id scan) (coherent : system.Coherent) :
    (system.perform (.next name)).2.Scans name transaction id
      (scan.next system.store.bare).2.1 := by
  have follows := scans.perform_next coherent
  have kept := (scan.step_next system.store.bare).owner
  refine ⟨?_, kept.2.trans scans.transactionIs, ?_⟩
  · rw [follows.bareIs]
    exact if_pos rfl
  · rw [kept.1]
    exact scans.tableIs

theorem Scans.other {operation : Operation} (scans : system.Scans name transaction id scan)
    (follows : Follows (system.perform operation) (system.bare.perform operation))
    (continues : operation.Continues name) (different : operation ≠ .next name) :
    (system.perform operation).2.Scans name transaction id scan := by
  refine ⟨?_, scans.transactionIs, scans.tableIs⟩
  rw [follows.bareIs, system.bare.scans_perform continues different]
  exact scans.found

structure Turn (start opened : System) (history events : List Event) (current : System)
    (name : Nat) (transaction : TransactionId) (id : TableId) (scan : BareScan) : Prop where
  run : Run Operation.Ordinary opened events current
  coherent : current.Coherent
  keeps : current.store.bare.Keeps (Ledger.after start.store.stored (history ++ events))
  scans : current.Scans name transaction id scan

/-- Induction over the events since a scan was opened: its own steps, and the events of others. -/
theorem Run.scan_induction {motive : List Event → BareScan → Prop} (fresh : start.Fresh)
    (reached : Run Operation.Ordinary start history opened)
    (run : Run (Ongoing name) opened events system)
    (scans : opened.Scans name transaction id scan) (opening : motive [] scan)
    (next : ∀ {earlier current scan},
      Turn start opened history earlier current name transaction id scan → motive earlier scan →
      motive (earlier ++ [⟨.next name, .scanned (scan.next current.store.bare).1⟩])
        (scan.next current.store.bare).2.1)
    (other : ∀ {earlier : List Event} {scan event}, event.operation ≠ .next name →
      motive earlier scan → motive (earlier ++ [event]) scan) :
    ∃ scan, Turn start opened history events system name transaction id scan ∧
      motive events scan := by
  induction run with
  | start =>
      have whole := reached.append (.start : Run Operation.Ordinary opened [] opened)
      exact ⟨scan, ⟨.start, whole.coherent fresh.coherent, whole.keeps fresh, scans⟩, opening⟩
  | @step events current operation earlier ongoing countable ih =>
      obtain ⟨scan, turn, held⟩ := ih
      have further := Run.step operation turn.run ongoing.1 countable
      have whole := reached.append further
      have coherent := whole.coherent fresh.coherent
      by_cases own : operation = .next name
      · subst own
        have answered := (turn.scans.perform_next turn.coherent).answered
        have after := next turn held
        rw [← show (current.perform (.next name)).1 =
          .scanned (scan.next current.store.bare).1 from answered] at after
        exact ⟨_, ⟨further, coherent, whole.keeps fresh, turn.scans.next turn.coherent⟩, after⟩
      · have follows := turn.coherent.perform_of_countable operation countable
        exact ⟨scan, ⟨further, coherent, whole.keeps fresh,
          turn.scans.other follows ongoing.2 own⟩, other own held⟩

/-! ### Properties kept by steps -/

structure ComesTo (system : System) (name : Nat) (page : PageId) (rows : List SeenRow) : Prop where
  unbuffered : ∃ scan, system.scans name = some scan ∧ scan.buffered = []
  taken : ∃ first after, (system.perform (.next name)).1 = .scanned (some (.ok first)) ∧
    (system.perform (.next name)).2.scans name = some after ∧
    page = after.table.page page.number ∧ after.ahead.first = page.number.toNat + 1 ∧
    rows = first :: after.buffered.map Row.seen

/-- The committed records after these events, with the transaction's own changes. -/
def seenAfter (start : System) (transaction : TransactionId) (history : List Event) : Records :=
  (Ledger.after start.store.stored history).view transaction

/-- The row is on a page that the scan loaded at one of these events, and all rows of that page are
those in the transaction's view at that moment. -/
def Traced (start opened : System) (history : List Event) (name : Nat)
    (transaction : TransactionId) (events : List Event) (row : SeenRow) : Prop :=
  ∃ moment current page rows, Run Operation.Ordinary opened moment current ∧
    moment ++ [⟨.next name, (current.perform (.next name)).1⟩] <+: events ∧
    current.ComesTo name page rows ∧
    (seenAfter start transaction (history ++ moment)).Listed page rows ∧ row ∈ rows

theorem Traced.later {row : SeenRow}
    (traced : Traced start opened history name transaction events row) (further : List Event) :
    Traced start opened history name transaction (events ++ further) row := by
  obtain ⟨moment, current, page, rows, run, earlier, comes, listed, member⟩ := traced
  exact ⟨moment, current, page, rows, run, earlier.trans (List.prefix_append _ _), comes, listed,
    member⟩

/-- The rows of a page in the transaction's view at some moment of these events. -/
def SeenDuring (start : System) (history : List Event) (transaction : TransactionId)
    (events : List Event) (page : PageId) (shown : List SeenRow) : Prop :=
  ∃ moment, moment <+: events ∧
    (seenAfter start transaction (history ++ moment)).Listed page shown

theorem SeenDuring.later {page : PageId} {shown : List SeenRow}
    (seen : SeenDuring start history transaction events page shown) (further : List Event) :
    SeenDuring start history transaction (events ++ further) page shown := by
  obtain ⟨moment, earlier, listed⟩ := seen
  exact ⟨moment, earlier.trans (List.prefix_append _ _), listed⟩

theorem Scans.comesTo (scans : system.Scans name transaction id scan) (coherent : system.Coherent)
    (unbuffered : scan.buffered = []) {row : SeenRow} {rest : List SeenRow} {number : UInt32}
    {length : Nat} {bare : Bare}
    (next : scan.next system.store.bare = (some (.ok row),
      ⟨scan.table, scan.transaction, ⟨number.toNat + 1, length⟩, rest⟩, bare)) :
    system.ComesTo name (scan.table.page number) (row :: rest) := by
  have follows := scans.perform_next coherent
  have left := (scans.next coherent).found
  rw [next] at follows left
  obtain ⟨entry, found, rfl⟩ := Option.map_eq_some_iff.mp scans.found
  obtain ⟨after, foundAfter, same⟩ := Option.map_eq_some_iff.mp left
  cases after
  cases same
  exact ⟨⟨entry, found, List.map_eq_nil_iff.mp unbuffered⟩, row, _, follows.answered, foundAfter,
    rfl, rfl, rfl⟩

section Turn

variable (turn : Turn start opened history events current name transaction id scan)

include turn

theorem Turn.listed {page : PageId} {slots : Slots}
    (visited : Bare.Visited current.store.bare (scan.next current.store.bare).2.2 scan.transaction
      page slots) :
    (seenAfter start transaction (history ++ events)).Listed page (slots.rows page) := by
  have locks := BareScan.next_locks current.store.bare scan
  rw [turn.scans.transactionIs] at visited locks
  exact Slots.listed (turn.keeps.visited locks visited)

/-- A step keeps the rows `Traced`: those it loads are in the view at that moment. -/
theorem Turn.traced (small : count < UInt32.size) {rows : List SeenRow}
    (ascends : scan.Ascends count rows)
    (traced : ∀ row ∈ rows ++ scan.buffered,
      Traced start opened history name transaction events row) :
    ∀ row ∈ rows ++ BareScan.yielded (scan.next current.store.bare).1 ++
        (scan.next current.store.bare).2.1.buffered,
      Traced start opened history name transaction
        (events ++ [⟨.next name, .scanned (scan.next current.store.bare).1⟩]) row := by
  intro row member
  have answered := (turn.scans.perform_next turn.coherent).answered
  have listed := @turn.listed
  have step := scan.step_next current.store.bare
  rw [List.append_assoc] at member
  generalize next : scan.next current.store.bare = result at step member answered listed ⊢
  cases step with
  | hand held => exact (traced row (held ▸ member)).later _
  | @load number length first rest after slots unbuffered passes total visited taken =>
      rcases List.mem_append.mp member with earlier | new
      · exact (traced row (List.mem_append_left _ earlier)).later _
      · have numberIs : (UInt32.ofNat number).toNat = number := by
          have above := passes.reached
          apply UInt32.toNat_ofNat_of_lt'
          rcases ascends.ahead with none | ⟨within, -⟩ <;> omega
        rw [← numberIs] at next
        have comes := turn.scans.comesTo turn.coherent unbuffered next
        have all := listed visited
        rw [taken] at all
        refine ⟨events, current, _, _, turn.run, ?_, numberIs ▸ comes, all, new⟩
        rw [answered]
        exact List.prefix_rfl
  | finish unbuffered passes => exact (traced row (unbuffered ▸ member)).later _
  | fail unbuffered forward halted => exact (traced row (unbuffered ▸ member)).later _

end Turn

section Opened

variable (fresh : start.Fresh) (reached : Run Operation.Ordinary start history opened)
  (run : Run (Ongoing name) opened events system)
  (scans : opened.Scans name transaction id scan)

include fresh reached run scans

/-- The rows of a scan come in order, and are those in its transaction's view when their pages were
loaded. -/
theorem Run.ascends (small : count < UInt32.size) (unbuffered : scan.buffered = [])
    (opening : scan.Ascends count []) :
    (Event.rows name events).Pairwise Precedes ∧
      ∀ row ∈ Event.rows name events,
        Traced start opened history name transaction events row := by
  have invariant := Run.scan_induction fresh reached run scans
    (motive := fun events scan => scan.Ascends count (Event.rows name events) ∧
      ∀ row ∈ Event.rows name events ++ scan.buffered,
        Traced start opened history name transaction events row) ?_ ?_ ?_
  · obtain ⟨scan, -, ascends, traced⟩ := invariant
    exact ⟨(List.pairwise_append.mp ascends.ordered).1,
      fun row member => traced row (List.mem_append_left _ member)⟩
  · refine ⟨opening, ?_⟩
    rw [unbuffered]
    nofun
  · rintro earlier current scan turn ⟨ascends, traced⟩
    rw [Event.rows_next]
    exact ⟨ascends.step small (scan.step_next _), turn.traced small ascends traced⟩
  · rintro earlier scan event different ⟨ascends, traced⟩
    rw [Event.rows_other different]
    exact ⟨ascends, fun row member => (traced row member).later _⟩

/-- A scan that does not fail has loaded every page before those ahead. -/
theorem Run.covers (opening : scan.Covers count (fun _ _ => False) [] 0)
    (faultless : ∀ event ∈ events, event.Faultless name) :
    ∃ scan number, Turn start opened history events system name transaction id scan ∧
      scan.Covers count (SeenDuring start history transaction events) (Event.rows name events)
        number := by
  have invariant := Run.scan_induction fresh reached run scans
    (motive := fun events scan => (∀ event ∈ events, event.Faultless name) →
      ∃ number, scan.Covers count (SeenDuring start history transaction events)
        (Event.rows name events) number) ?_ ?_ ?_
  · obtain ⟨scan, turn, held⟩ := invariant
    obtain ⟨number, covers⟩ := held faultless
    exact ⟨scan, number, turn, covers⟩
  · exact fun _ => ⟨0, opening.ahead, fun earlier below => absurd below (Nat.not_lt_zero _)⟩
  · intro earlier current scan turn held faultless
    obtain ⟨before, now⟩ := List.forall_mem_append.mp faultless
    obtain ⟨number, covers⟩ := held before
    rw [Event.rows_next]
    refine covers.step (fun page shown seen => seen.later _) (scan.step_next _) ?_ ?_
    · intro page slots visited
      exact ⟨earlier, List.prefix_append _ _, turn.listed visited⟩
    · intro failure failed
      rw [List.forall_mem_singleton, failed] at now
      exact now rfl
  · intro earlier scan event different held faultless
    obtain ⟨before, -⟩ := List.forall_mem_append.mp faultless
    obtain ⟨number, covers⟩ := held before
    rw [Event.rows_other different]
    refine ⟨number, covers.ahead, fun page below => ?_⟩
    obtain ⟨shown, seen, subset⟩ := covers.covered page below
    exact ⟨shown, seen.later _, subset⟩

/-- A scan at its end, or after an error, yields nothing more. -/
theorem Run.halted :
    events.Pairwise fun earlier later =>
      earlier.Halts name → later.operation = .next name → later.answer = .scanned none := by
  have invariant := Run.scan_induction fresh reached run scans
    (motive := fun events scan => (events.Pairwise fun earlier later =>
        earlier.Halts name → later.operation = .next name → later.answer = .scanned none) ∧
      ((∃ event ∈ events, event.Halts name) → scan.Exhausted)) ?_ ?_ ?_
  · obtain ⟨scan, -, silent, -⟩ := invariant
    exact silent
  · refine ⟨.nil, ?_⟩
    rintro ⟨event, member, halts⟩
    cases member
  · rintro earlier current scan turn ⟨silent, exhausted⟩
    refine ⟨List.pairwise_append.mpr ⟨silent, List.pairwise_singleton _ _, ?_⟩, ?_⟩
    · intro event member last again halts own
      rw [List.mem_singleton.mp again]
      exact congrArg Answer.scanned ((exhausted ⟨event, member, halts⟩).next _).1
    · rintro ⟨event, member, halts⟩
      rcases List.mem_append.mp member with before | last
      · exact ((exhausted ⟨event, before, halts⟩).next _).2
      · rw [List.mem_singleton.mp last] at halts
        obtain ⟨outcome, stops, same⟩ := halts
        cases same
        exact (scan.step_next _).exhausted stops
  · rintro earlier scan event different ⟨silent, exhausted⟩
    refine ⟨List.pairwise_append.mpr ⟨silent, List.pairwise_singleton _ _, ?_⟩, ?_⟩
    · intro former member last again halts own
      rw [List.mem_singleton.mp again] at own
      exact absurd own different
    · rintro ⟨former, member, halts⟩
      rcases List.mem_append.mp member with before | last
      · exact exhausted ⟨former, before, halts⟩
      · rw [List.mem_singleton.mp last] at halts
        obtain ⟨outcome, stops, rfl⟩ := halts
        exact absurd rfl different

/-- A scan that ends without an error has yielded every record that was in its transaction's view
throughout. -/
theorem Run.yields_all (opening : scan.Covers count (fun _ _ => False) [] 0)
    (faultless : ∀ event ∈ events, event.Faultless name)
    (ended : (system.perform (.next name)).1 = .scanned none) {record : RecordId}
    (own : record.page.table = id) (counted : record.page.number.toNat < count)
    (stays : ∀ moment, moment <+: events →
      (seenAfter start transaction (history ++ moment) record).isSome) :
    ∃ moment values, moment <+: events ∧
      seenAfter start transaction (history ++ moment) record = some values ∧
      (some record, values) ∈ Event.rows name events := by
  obtain ⟨scan, number, turn, covers⟩ :=
    Run.covers fresh reached run scans opening faultless
  have answered := (turn.scans.perform_next turn.coherent).answered
  rw [ended] at answered
  have ended : (scan.next system.store.bare).1 = none := (Answer.scanned.inj answered).symm
  have exhausted := (scan.step_next system.store.bare).exhausted (by rw [ended]; trivial)
  have sound : ∀ failure, (scan.next system.store.bare).1 ≠ some (.error failure) := by
    intro failure failed
    rw [ended] at failed
    cases failed
  obtain ⟨last, after⟩ := covers.step (fun _ _ known => known) (scan.step_next _)
    (fun page slots visited => ⟨events, List.prefix_rfl, turn.listed visited⟩) sound
  obtain ⟨shown, ⟨moment, past, listed⟩, subset⟩ := after.covered record.page.number.toNat
    ((after.complete exhausted).symm ▸ counted)
  have pageIs : (scan.next system.store.bare).2.1.table.page
      (UInt32.ofNat record.page.number.toNat) = record.page := by
    rw [(scan.step_next _).owner.1, Table.page, turn.scans.tableIs, ← own, UInt32.ofNat_toNat]
  rw [pageIs] at listed
  obtain ⟨values, seen⟩ := Option.isSome_iff_exists.mp (stays moment past)
  refine ⟨moment, values, past, seen, ?_⟩
  have member := subset ((listed.exact (some record) values).mpr ⟨record.slot, rfl, seen⟩)
  have silent : BareScan.yielded none = [] := rfl
  rwa [exhausted.unbuffered, ended, silent, List.append_nil, List.append_nil] at member

end Opened

theorem Opens.scans (opens : before.Opens name transaction id opening)
    (coherent : before.Coherent) :
    ∃ scan, (before.perform opening).2.Scans name transaction id scan ∧ scan.buffered = [] ∧
      scan.Ascends (before.store.counts id) [] ∧
      scan.Covers (before.store.counts id) (fun _ _ => False) [] 0 := by
  obtain ⟨table, scan, rfl, started, found, -⟩ := opens.starts coherent
  unfold BareScan.start at started
  split at started
  · cases started
  · cases started
    refine ⟨_, ⟨found, rfl, rfl⟩, rfl, ⟨.nil, .inr ⟨?_, nofun⟩⟩, .inl ⟨rfl, ?_⟩, ?_⟩
    · exact Nat.le_of_eq (Nat.zero_add _)
    · exact Nat.zero_add _
    · exact fun earlier below => absurd below (Nat.not_lt_zero _)

/-- Rows are yielded in the order of their record ids, each as it was in the transaction's view when
its page was loaded. A scan that ended without an error has yielded every record on its pages that
was in the view throughout. After its end or an error it yields nothing. -/
structure Scanned (start opened : System) (history events : List Event) (system : System)
    (name : Nat) (transaction : TransactionId) (id : TableId) (count : Nat) : Prop where
  ordered : (Event.rows name events).Pairwise Precedes
  traced : ∀ row ∈ Event.rows name events,
    Traced start opened history name transaction events row
  complete : (∀ event ∈ events, event.Faultless name) →
    (system.perform (.next name)).1 = .scanned none →
    ∀ record : RecordId, record.page.table = id → record.page.number.toNat < count →
      (∀ moment, moment <+: events →
        (seenAfter start transaction (history ++ moment) record).isSome) →
      ∃ moment values, moment <+: events ∧
        seenAfter start transaction (history ++ moment) record = some values ∧
        (some record, values) ∈ Event.rows name events
  halted : events.Pairwise fun earlier later =>
    earlier.Halts name → later.operation = .next name → later.answer = .scanned none

/-- Every scan in every `Ordinary` run is `Scanned`, with any operations between its steps. -/
theorem scanned_in_order (fresh : start.Fresh)
    (reached : Run Operation.Ordinary start history before)
    (opens : before.Opens name transaction id opening)
    (run : Run (Ongoing name) (before.perform opening).2 events system) :
    Scanned start (before.perform opening).2 (history ++ [⟨opening, .started (.ok ())⟩]) events
      system name transaction id (before.store.counts id) := by
  have coherent := reached.coherent fresh.coherent
  have small := coherent.store.countable.counts_lt id
  obtain ⟨scan, scans, unbuffered, ascends, covers⟩ := opens.scans coherent
  have opened := reached.step opening opens.undisturbed.1
    (opens.follows coherent).coherent.store.countable
  rw [opens.started] at opened
  obtain ⟨ordered, traced⟩ := Run.ascends fresh opened run scans small unbuffered ascends
  refine ⟨ordered, traced, ?_, Run.halted fresh opened run scans⟩
  intro faultless ended record own counted stays
  exact Run.yields_all fresh opened run scans covers faultless ended own counted stays

/-- A reader inserts into the table that it scans. The scan yields the row that was there, but not
its own, which is on a page appended after the opening. -/
theorem scanned_in_order_small :
    ∃ history events system, small.Fresh ∧ Run Operation.Ordinary small history single ∧
      single.Opens 0 ⟨2⟩ ⟨7⟩ (.scan 0 ⟨2⟩ ⟨7⟩) ∧
      Run (Ongoing 0) (single.perform (.scan 0 ⟨2⟩ ⟨7⟩)).2 events system ∧
      Scanned small (single.perform (.scan 0 ⟨2⟩ ⟨7⟩)).2
        (history ++ [⟨.scan 0 ⟨2⟩ ⟨7⟩, .started (.ok ())⟩]) events system 0 ⟨2⟩ ⟨7⟩
        (single.store.counts ⟨7⟩) ∧
      events.map Event.operation = [.insert ⟨2⟩ ⟨7⟩ (numberRow 6), .next 0, .next 0, .commit ⟨2⟩] ∧
      Event.rows 0 events = [(some ⟨numbers.page 0, 0⟩, [.int 5])] ∧
      (system.perform (.next 0)).1 = .scanned none := by
  obtain ⟨history, reached⟩ := single_reached
  have opens : single.Opens 0 ⟨2⟩ ⟨7⟩ (.scan 0 ⟨2⟩ ⟨7⟩) := ⟨.inl rfl, rfl⟩
  have run := Run.step (.insert ⟨2⟩ ⟨7⟩ (numberRow 6))
    (.start : Run (Ongoing 0) (single.perform (.scan 0 ⟨2⟩ ⟨7⟩)).2 [] _)
    ⟨trivial, trivial⟩ (Store.countable_single rfl (by decide +kernel))
  have run := Run.step (.next 0) run ⟨trivial, trivial⟩
    (Store.countable_single rfl (by decide +kernel))
  have run := Run.step (.next 0) run ⟨trivial, trivial⟩
    (Store.countable_single rfl (by decide +kernel))
  have run := Run.step (.commit ⟨2⟩) run ⟨trivial, trivial⟩
    (Store.countable_single rfl (by decide +kernel))
  exact ⟨history, _, _, small_fresh, reached, opens, run,
    scanned_in_order small_fresh reached opens run, rfl, rfl, rfl⟩

end System

end RecordStore
