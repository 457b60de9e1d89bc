import Mathlib.Data.List.Forall2
import RecordStore.Proofs.Store.Capacity
import RecordStore.Proofs.Store.Exact

set_option autoImplicit false

/-! Eviction. Answers, with rows as they are stored, do not depend on which clean pages are cached
or evicted, nor on the capacity. Only a text that is too long for its room makes a difference: it is
whole as long as its page stays cached. -/

namespace RecordStore

/-! ### Rows that look alike -/

structure Row.Alike (id : PageId) (left right : Row) : Prop where
  seen : left.seen = right.seen
  whole : left.place.map RecordId.page = some id → left.values = right.values

theorem Row.Alike.refl (id : PageId) (row : Row) : row.Alike id row := ⟨rfl, fun _ => rfl⟩

theorem Row.alike_of_seen {id : PageId} {left right : List Row}
    (seen : left.map Row.seen = right.map Row.seen)
    (leftFits : ∀ row, row ∈ left → row.place.map RecordId.page = some id → row.Fits)
    (rightFits : ∀ row, row ∈ right → row.place.map RecordId.page = some id → row.Fits) :
    List.Forall₂ (Row.Alike id) left right := by
  induction left generalizing right with
  | nil =>
      cases right with
      | nil => exact .nil
      | cons row rows => cases seen
  | cons row rows ih =>
      cases right with
      | nil => cases seen
      | cons other others =>
          rw [List.map_cons, List.map_cons, List.cons.injEq] at seen
          have place : row.place = other.place := congrArg Prod.fst seen.1
          have stored : row.stored = other.stored := congrArg Prod.snd seen.1
          refine .cons ⟨seen.1, fun here => ?_⟩ (ih seen.2
            (fun row member => leftFits row (List.mem_cons_of_mem _ member))
            fun row member => rightFits row (List.mem_cons_of_mem _ member))
          have there := here
          rw [place] at there
          rw [← row.fits_iff.mp (leftFits row List.mem_cons_self here),
            ← other.fits_iff.mp (rightFits other List.mem_cons_self there), stored]

def Row.ofPage (id : PageId) (rows : List Row) : List (Option RecordId × List Value) :=
  (rows.filter fun row => row.place.map RecordId.page == some id).map fun row =>
    (row.place, row.values)

theorem Row.ofPage_eq {id : PageId} {left right : List Row}
    (alike : List.Forall₂ (Row.Alike id) left right) : ofPage id left = ofPage id right := by
  induction alike with
  | nil => rfl
  | @cons row other rows others first rest ih =>
      have place : row.place = other.place := congrArg Prod.fst first.seen
      rw [ofPage, ofPage, List.filter_cons, List.filter_cons, ← place]
      split
      · next here =>
          rw [List.map_cons, List.map_cons, ← place, first.whole (eq_of_beq here)]
          exact congrArg _ ih
      · exact ih

/-! ### Stores that look alike -/

structure Store.Alike (id : PageId) (own larger : Nat) (left right : Store) : Prop where
  leftCoherent : left.Coherent
  rightCoherent : right.Coherent
  bareIs : right.bare = left.bare.widen larger
  capacity : left.capacity = own
  smaller : own ≤ larger
  leftExact : left.Exact id
  rightExact : right.Exact id

namespace Store.Alike

variable {id : PageId} {own larger : Nat} {left right : Store}

theorem rows (alike : left.Alike id own larger right) {page : PageId} {first second : PageCopy}
    (firstCached : left.cache[page]? = some first) (secondCached : right.cache[page]? = some second)
    (same : second.page.contents = first.page.contents) :
    List.Forall₂ (Row.Alike id) first.page.rows second.page.rows := by
  obtain ⟨table, -, faithful⟩ := alike.leftCoherent.faithful page first firstCached
  obtain ⟨tableToo, -, faithfulToo⟩ := alike.rightCoherent.faithful page second secondCached
  refine Row.alike_of_seen ?_ (alike.leftExact page first firstCached)
    (alike.rightExact page second secondCached)
  rw [Store.map_seen_rows_of_faithful faithful, Store.map_seen_rows_of_faithful faithfulToo, same]

inductive Pages (id : PageId) : (first second : Except Failure PageCopy) → Prop where
  | failed (failure : Failure) : Pages id (.error failure) (.error failure)
  | shown {first second : PageCopy} :
      List.Forall₂ (Row.Alike id) first.page.rows second.page.rows →
      Pages id (.ok first) (.ok second)

theorem Pages.of_map {left right : Except Failure PageCopy}
    (same : right.map (fun cached => cached.page.contents) =
      left.map fun cached => cached.page.contents)
    (rows : ∀ first second, left = .ok first → right = .ok second →
      second.page.contents = first.page.contents →
      List.Forall₂ (Row.Alike id) first.page.rows second.page.rows) : Pages id left right := by
  cases left with
  | error failure =>
      cases right with
      | error failureToo =>
          cases same
          exact .failed failure
      | ok second => cases same
  | ok first =>
      cases right with
      | error failure => cases same
      | ok second => exact .shown (rows first second rfl rfl (Except.ok.inj same))

theorem getPage (alike : left.Alike id own larger right) (transaction : TransactionId)
    (page : PageId) (access : Access) :
    (own ≠ larger ∧ ∃ failure : Failure, failure.Crowded ∧
        (left.getPage transaction page access).1 = .error failure) ∨
      ((left.getPage transaction page access).2.Alike id own larger
          (right.getPage transaction page access).2 ∧
        Pages id (left.getPage transaction page access).1
          (right.getPage transaction page access).1) := by
  have fetches := alike.leftCoherent.getPage transaction page access
  have fetchesToo := alike.rightCoherent.getPage transaction page access
  rw [alike.bareIs] at fetchesToo
  have capacity : left.bare.capacity = own := alike.capacity
  rcases Bare.getPage_widens alike.smaller capacity transaction page access with
      ⟨kept, ⟨different, failure, crowded, failed⟩ | same⟩
  · refine .inl ⟨different, failure, crowded, ?_⟩
    have answered := fetches.answered.trans failed
    cases got : (left.getPage transaction page access).1 with
    | error other =>
        rw [got] at answered
        exact congrArg _ (Except.error.inj answered)
    | ok cached =>
        rw [got] at answered
        cases answered
  · rw [same] at fetchesToo
    have after : (left.getPage transaction page access).2.Alike id own larger
        (right.getPage transaction page access).2 := by
      refine ⟨fetches.coherent, fetchesToo.coherent, ?_, ?_, alike.smaller,
        (alike.leftExact.getPage transaction page access).kept,
        (alike.rightExact.getPage transaction page access).kept⟩
      · rw [fetchesToo.bareIs, fetches.bareIs]
      · exact (congrArg Bare.capacity fetches.bareIs).trans kept
    refine .inr ⟨after, .of_map (fetchesToo.answered.trans fetches.answered.symm) ?_⟩
    intro first second got gotToo
    exact after.rows (fetches.present first got) (fetchesToo.present second gotToo)

end Store.Alike

/-! ### Scans that look alike -/

def Scan.yielded : Option (Except Failure Row) → List Row
  | some (.ok row) => [row]
  | _ => []

structure Scan.Alike (id : PageId) (left right : Option (Except Failure Row) × Scan × Store) :
    Prop where
  yielded : List.Forall₂ (Row.Alike id) (Scan.yielded left.1) (Scan.yielded right.1)
  buffered : List.Forall₂ (Row.Alike id) left.2.1.buffered right.2.1.buffered

namespace Scan

variable {id : PageId} {own larger : Nat} {left right : Store}

def Hampered (own larger : Nat) (outcome : Option (Except Failure Row)) : Prop :=
  own ≠ larger ∧ ∃ failure : Failure, failure.Crowded ∧ outcome = some (.error failure)

theorem advance_alike (alike : left.Alike id own larger right) (table : Table)
    (transaction : TransactionId) (first length : Nat) :
    Hampered own larger (advance table transaction first length left).1 ∨
      Alike id (advance table transaction first length left)
        (advance table transaction first length right) := by
  induction length generalizing left right first with
  | zero => exact .inr ⟨.nil, .nil⟩
  | succ length ih =>
      have outcomes := alike.getPage transaction (table.page (UInt32.ofNat first)) .readOnly
      unfold advance
      generalize left.getPage transaction (table.page (UInt32.ofNat first)) .readOnly = result
        at outcomes ⊢
      generalize right.getPage transaction (table.page (UInt32.ofNat first)) .readOnly = resultToo
        at outcomes ⊢
      obtain ⟨outcome, leftAfter⟩ := result
      obtain ⟨outcomeToo, rightAfter⟩ := resultToo
      rcases outcomes with ⟨different, failure, crowded, rfl⟩ | ⟨after, pages⟩
      · cases failure <;> exact .inl ⟨different, _, crowded, rfl⟩
      · cases pages with
        | failed failure => cases failure <;> exact .inr ⟨.nil, .nil⟩
        | @shown page pageToo rows =>
            simp only
            generalize page.page.rows = leftRows at rows ⊢
            generalize pageToo.page.rows = rightRows at rows ⊢
            cases rows with
            | nil => exact ih after (first + 1)
            | cons here rest => exact .inr ⟨.cons here .nil, rest⟩

theorem next_alike (alike : left.Alike id own larger right) {scan other : Scan}
    (same : other.bare = scan.bare)
    (buffered : List.Forall₂ (Row.Alike id) scan.buffered other.buffered) :
    Hampered own larger (scan.next left).1 ∨
      Alike id (scan.next left) (other.next right) := by
  have table : other.table = scan.table := congrArg BareScan.table same
  have transaction : other.transaction = scan.transaction := congrArg BareScan.transaction same
  have ahead : other.ahead = scan.ahead := congrArg BareScan.ahead same
  unfold next
  cases rows : scan.buffered with
  | nil =>
      rw [rows] at buffered
      cases rowsToo : other.buffered with
      | nil =>
          simp only [table, transaction, ahead]
          exact advance_alike alike scan.table scan.transaction scan.ahead.first scan.ahead.length
      | cons row more =>
          rw [rowsToo] at buffered
          cases buffered
  | cons row more =>
      rw [rows] at buffered
      cases rowsToo : other.buffered with
      | nil =>
          rw [rowsToo] at buffered
          cases buffered
      | cons rowToo moreToo =>
          rw [rowsToo] at buffered
          cases buffered with
          | cons here rest => exact .inr ⟨.cons here .nil, rest⟩

end Scan

/-! ### Twin systems -/

/-- The same systems up to clean pages, the second with at least as much room. -/
structure System.Twin (own larger : Nat) (left right : System) : Prop where
  leftCoherent : left.Coherent
  rightCoherent : right.Coherent
  bareIs : right.bare = left.bare.widen larger
  capacity : left.store.capacity = own
  smaller : own ≤ larger

namespace System

variable {own larger : Nat} {left right : System}

theorem Twin.perform (twin : left.Twin own larger right) {operation : Operation}
    (countable : (left.perform operation).2.store.Countable)
    (stands : (left.perform operation).1.Stands own larger) :
    (right.perform operation).1 = (left.perform operation).1 ∧
      (left.perform operation).2.Twin own larger (right.perform operation).2 := by
  have follows := twin.leftCoherent.perform_of_countable operation countable
  have capacity : left.store.bare.capacity = own := twin.capacity
  have followsToo : Follows (right.perform operation) (right.bare.perform operation) := by
    apply twin.rightCoherent.perform operation
    rintro transaction id row table rfl known needs
    have same : right.store.bare = left.store.bare.widen larger :=
      congrArg BareSystem.bare twin.bareIs
    have keyed := twin.rightCoherent.store.distinct.keyed id table known
    have knownToo : left.store.tables[id]? = some table :=
      (congrArg (fun bare : Bare => bare.tables[id]?) same).symm.trans known
    have counts : right.store.counts table.id = left.store.counts table.id :=
      congrFun (congrArg Bare.counts same) table.id
    rw [Store.counts_of_table (keyed ▸ known), Store.counts_of_table (keyed ▸ knownToo)] at counts
    rw [same] at needs
    rw [counts]
    rcases Bare.needs_widens twin.smaller capacity knownToo needs with
      ⟨different, failure, crowded, failed⟩ | needs
    · refine absurd (stands ?_) different
      rw [follows.answered]
      change (Answer.placed (left.store.bare.insert transaction id row).1).Crowded
      rw [failed]
      exact crowded
    · exact twin.leftCoherent.store.room_of_countable knownToo countable needs
  rcases left.bare.perform_widens (capacity ▸ twin.smaller) operation with
      ⟨kept, ⟨different, crowded⟩ | same⟩
  · rw [← follows.answered] at crowded
    exact absurd (Eq.trans capacity (stands crowded)) different
  · rw [twin.bareIs, same] at followsToo
    refine ⟨followsToo.answered.trans follows.answered.symm, follows.coherent,
      followsToo.coherent, ?_, ?_, twin.smaller⟩
    · rw [followsToo.bareIs, follows.bareIs]
    · exact (congrArg (fun system => system.bare.capacity) follows.bareIs).trans
        (kept.trans capacity)

theorem Twin.run {allowed : Operation → Prop} {events : List Event} {reached : System}
    (twin : left.Twin own larger right) (run : Run allowed left events reached)
    (stands : ∀ event ∈ events, event.answer.Stands own larger) :
    (right.performAll (events.map Event.operation)).1 = events ∧
      reached.Twin own larger (right.performAll (events.map Event.operation)).2 := by
  induction run with
  | start => exact ⟨rfl, twin⟩
  | step operation earlier permitted countable ih =>
      obtain ⟨answers, twin⟩ := ih fun event member =>
        stands event (List.mem_append_left _ member)
      obtain ⟨answered, after⟩ := twin.perform countable
        (stands _ (List.mem_append_right _ (List.mem_singleton_self _)))
      rw [List.map_append, List.map_singleton, performAll_append]
      refine ⟨?_, after⟩
      rw [answers, answered]

end System

/-! ### Rows of a page with their full values -/

namespace System

/-- The records that an answer shows. -/
def returned (system : System) : Operation → List Row
  | .get transaction page access =>
      match (system.store.getPage transaction page access).1 with
      | .ok cached => cached.page.rows
      | .error _ => []
  | .next name =>
      match system.scans name with
      | some scan => Scan.yielded (scan.next system.store).1
      | none => []
  | _ => []

def shownOf (system : System) (page : PageId) (operation : Operation) :
    List (Option RecordId × List Value) := Row.ofPage page (system.returned operation)

def Buffered (id : PageId) (left right : Nat → Option Scan) : Prop :=
  ∀ name scan other, left name = some scan → right name = some other →
    List.Forall₂ (Row.Alike id) scan.buffered other.buffered

structure Alike (id : PageId) (own larger : Nat) (left right : System) : Prop where
  twin : left.Twin own larger right
  leftExact : left.store.Exact id
  rightExact : right.store.Exact id
  buffered : Buffered id left.scans right.scans

namespace Alike

variable {id : PageId} {own larger : Nat} {left right : System}

theorem store (alike : left.Alike id own larger right) :
    left.store.Alike id own larger right.store :=
  ⟨alike.twin.leftCoherent.store, alike.twin.rightCoherent.store,
    congrArg BareSystem.bare alike.twin.bareIs, alike.twin.capacity, alike.twin.smaller,
    alike.leftExact, alike.rightExact⟩

theorem scan_cases (alike : left.Alike id own larger right) (name : Nat) :
    (left.scans name = none ∧ right.scans name = none) ∨
      ∃ scan other, left.scans name = some scan ∧ right.scans name = some other ∧
        other.bare = scan.bare ∧ List.Forall₂ (Row.Alike id) scan.buffered other.buffered := by
  have scans : (right.scans name).map Scan.bare = (left.scans name).map Scan.bare :=
    congrFun (congrArg BareSystem.scans alike.twin.bareIs) name
  cases found : left.scans name with
  | none =>
      rw [found, Option.map_none, Option.map_eq_none_iff] at scans
      exact .inl ⟨rfl, scans⟩
  | some scan =>
      rw [found, Option.map_some, Option.map_eq_some_iff] at scans
      obtain ⟨other, foundToo, same⟩ := scans
      exact .inr ⟨scan, other, rfl, foundToo, same, alike.buffered name scan other found foundToo⟩

/-- Scan steps of twin stores are alike unless one is refused for want of room. -/
theorem next_alike (alike : left.Alike id own larger right) {name : Nat} {scan other : Scan}
    (found : left.scans name = some scan) (same : other.bare = scan.bare)
    (buffered : List.Forall₂ (Row.Alike id) scan.buffered other.buffered)
    (stands : (left.perform (.next name)).1.Stands own larger) :
    Scan.Alike id (scan.next left.store) (other.next right.store) := by
  rcases Scan.next_alike alike.store same buffered with
      ⟨different, failure, crowded, failed⟩ | steps
  · refine absurd (stands ?_) different
    simp only [System.perform, found, stepped, failed]
    exact crowded
  · exact steps

theorem shownOf_eq (alike : left.Alike id own larger right) {operation : Operation}
    (stands : (left.perform operation).1.Stands own larger) :
    right.shownOf id operation = left.shownOf id operation := by
  symm
  apply Row.ofPage_eq
  cases operation with
  | get transaction page access =>
      rcases alike.store.getPage transaction page access with
        ⟨different, failure, crowded, failed⟩ | ⟨-, pages⟩
      · refine absurd (stands ?_) different
        simp only [System.perform, System.after, failed]
        exact crowded
      · simp only [returned]
        generalize (left.store.getPage transaction page access).1 = first at pages ⊢
        generalize (right.store.getPage transaction page access).1 = second at pages ⊢
        cases pages with
        | failed failure => exact .nil
        | shown rows => exact rows
  | next name =>
      rcases alike.scan_cases name with
        ⟨absent, absentToo⟩ | ⟨scan, other, found, foundToo, same, buffered⟩
      · simp only [returned, absent, absentToo]
        exact .nil
      · simp only [returned, found, foundToo]
        exact (alike.next_alike found same buffered stands).yielded
  | _ => exact .nil

theorem Buffered.replaceAt {left right : Nat → Option Scan} (buffered : Buffered id left right)
    (name : Nat) {scan other : Scan}
    (new : List.Forall₂ (Row.Alike id) scan.buffered other.buffered) :
    Buffered id (replaceAt left name scan) (replaceAt right name other) := by
  intro place first second found foundToo
  simp only [RecordStore.replaceAt] at found foundToo
  split at found
  · next here =>
      rw [if_pos here] at foundToo
      cases found
      cases foundToo
      exact new
  · next elsewhere =>
      rw [if_neg elsewhere] at foundToo
      exact buffered place first second found foundToo

theorem buffered_of_start {table : Table} {transaction : TransactionId} {store : Store}
    {scan : Scan} (started : Scan.start table transaction store = .ok scan) :
    scan.buffered = [] := by
  unfold Scan.start at started
  split at started
  · cases started
  · cases started
    rfl

theorem keep_buffered (buffered : Buffered id left.scans right.scans) (name : Nat)
    {table other : Table} {transaction another : TransactionId}
    (same : (Scan.start other another right.store).map Scan.bare =
      (Scan.start table transaction left.store).map Scan.bare) :
    Buffered id (left.keep name (Scan.start table transaction left.store)).2.scans
      (right.keep name (Scan.start other another right.store)).2.scans := by
  cases started : Scan.start table transaction left.store with
  | error fault =>
      cases startedToo : Scan.start other another right.store with
      | error faultToo => exact buffered
      | ok scan =>
          rw [started, startedToo] at same
          cases same
  | ok scan =>
      cases startedToo : Scan.start other another right.store with
      | error fault =>
          rw [started, startedToo] at same
          cases same
      | ok scanToo =>
          apply Buffered.replaceAt buffered name
          rw [buffered_of_start started, buffered_of_start startedToo]
          exact .nil

theorem perform_buffered (alike : left.Alike id own larger right) {operation : Operation}
    (stands : (left.perform operation).1.Stands own larger) :
    Buffered id (left.perform operation).2.scans (right.perform operation).2.scans := by
  have same : right.store.bare = left.store.bare.widen larger :=
    congrArg BareSystem.bare alike.twin.bareIs
  have starts : ∀ table transaction, BareScan.start table transaction right.store.bare =
      BareScan.start table transaction left.store.bare := by
    intro table transaction
    rw [same]
    rfl
  cases operation with
  | scan name transaction table =>
      have tables : right.store.table? table = left.store.table? table :=
        congrArg (fun bare : Bare => bare.table? table) same
      simp only [System.perform, tables]
      cases found : left.store.table? table with
      | error error => exact alike.buffered
      | ok known =>
          have present : left.store.tables[table]? = some known :=
            left.store.bare.table?_ok found
          have own : left.store.tables[known.id]? = some known := by
            rw [alike.twin.leftCoherent.store.distinct.keyed table known present]
            exact present
          have ownToo : right.store.tables[known.id]? = some known :=
            (congrArg (fun bare : Bare => bare.tables[known.id]?) same).trans own
          apply keep_buffered alike.buffered name
          rw [Scan.start_bare alike.twin.leftCoherent.store own,
            Scan.start_bare alike.twin.rightCoherent.store ownToo, starts]
  | next name =>
      rcases alike.scan_cases name with
        ⟨absent, absentToo⟩ | ⟨scan, other, found, foundToo, same, buffered⟩
      · simp only [System.perform, absent, absentToo]
        exact alike.buffered
      · have steps := alike.next_alike found same buffered stands
        simp only [System.perform, found, foundToo]
        exact Buffered.replaceAt alike.buffered name steps.buffered
  | rewind name =>
      rcases alike.scan_cases name with
        ⟨absent, absentToo⟩ | ⟨scan, other, found, foundToo, same, buffered⟩
      · simp only [System.perform, absent, absentToo]
        exact alike.buffered
      · simp only [System.perform, found, foundToo]
        apply keep_buffered alike.buffered name
        have table : other.table = scan.table := congrArg BareScan.table same
        have transaction : other.transaction = scan.transaction :=
          congrArg BareScan.transaction same
        rw [Scan.start_bare alike.twin.leftCoherent.store
            (alike.twin.leftCoherent.scans name scan found),
          Scan.start_bare alike.twin.rightCoherent.store
            (alike.twin.rightCoherent.scans name other foundToo), starts, table, transaction]
  | _ => exact alike.buffered

/-- Twin systems stay so while no row is inserted that would be cut. -/
theorem perform (alike : left.Alike id own larger right) {operation : Operation}
    (fitting : operation.Fitting) (countable : (left.perform operation).2.store.Countable)
    (stands : (left.perform operation).1.Stands own larger) :
    (left.perform operation).2.Alike id own larger (right.perform operation).2 :=
  ⟨(alike.twin.perform countable stands).2, exact_perform alike.leftExact fitting,
    exact_perform alike.rightExact fitting, alike.perform_buffered stands⟩

theorem run {events : List Event} {reached : System}
    (run : Run Operation.Fitting left events reached) (alike : left.Alike id own larger right)
    (stands : ∀ event ∈ events, event.answer.Stands own larger) :
    reached.Alike id own larger (right.performAll (events.map Event.operation)).2 := by
  induction run with
  | start => exact alike
  | step operation earlier fitting countable ih =>
      rw [List.map_append, List.map_singleton, performAll_append]
      have before := ih fun event member => stands event (List.mem_append_left _ member)
      exact before.perform fitting countable
        (stands _ (List.mem_append_right _ (List.mem_singleton_self _)))

end Alike

/-! ### Evicting a page -/

variable {start system : System} {history : List Event}

/-- The system without this page in its cache, with any preference and any capacity from then on. -/
def without (system : System) (page : PageId) (preference : Preference) (capacity : Nat) : System :=
  { system with
    store := { system.store.discard page with preference := preference, capacity := capacity } }

theorem Coherent.without (coherent : system.Coherent) {page : PageId}
    (clean : ∀ cached, system.store.cache[page]? = some cached → cached.isClean = true)
    (preference : Preference) {capacity : Nat} (smaller : system.store.capacity ≤ capacity) :
    system.Twin system.store.capacity capacity (system.without page preference capacity) := by
  obtain ⟨distinct, countable, faithful, bounded⟩ := coherent.store.discard page
  refine ⟨coherent, ⟨⟨distinct, countable, faithful, Nat.le_trans bounded smaller⟩,
    coherent.scans⟩, ?_, rfl, smaller⟩
  have same : (system.store.discard page).bare = system.store.bare := by
    cases present : system.store.cache[page]? with
    | none => rw [Store.discard, erase_of_absent present]
    | some cached => exact Store.bare_discard_clean present (clean cached present)
  rw [bare, bare, ← same]
  rfl

theorem mem_shownOf_iff {page : PageId} {operation : Operation} {place : Option RecordId}
    {values : List Value} :
    (place, values) ∈ system.shownOf page operation ↔
      ∃ row, row ∈ system.returned operation ∧ row.place.map RecordId.page = some page ∧
        row.place = place ∧ row.values = values := by
  simp only [shownOf, Row.ofPage, List.mem_map, List.mem_filter, beq_iff_eq, Prod.mk.injEq,
    and_assoc]

/-- A cached page is shown by some operation as it is cached. -/
theorem returned_of_cached {page : PageId} {cached : PageCopy}
    (present : system.store.cache[page]? = some cached) :
    ∃ transaction, ¬ (system.perform (.get transaction page .readOnly)).1.Crowded ∧
      system.returned (.get transaction page .readOnly) = cached.page.rows := by
  obtain ⟨transaction, readable⟩ := system.store.locks.table.exists_reader page
  obtain ⟨table, granted⟩ := Option.isSome_iff_exists.mp readable
  have acquired : system.store.acquire transaction page .shared =
      (.ok (), { system.store with locks := { system.store.locks with table := table } }) := by
    rw [Store.acquire, LockService.acquire_granted granted]
  have got : (system.store.getPage transaction page .readOnly).1 = .ok cached := by
    have mode : Access.readOnly.mode = .shared := rfl
    simp only [Store.getPage, mode, acquired, Store.fetch, present]
  refine ⟨transaction, ?_, ?_⟩
  · simp only [perform, after, got]
    exact id
  · simp only [returned, got]

/-- A page shown from its file has no row that would be cut. -/
theorem fits_of_uncached (coherent : system.Coherent) {page : PageId}
    (absent : system.store.cache[page]? = none) {transaction : TransactionId} {access : Access}
    {row : Row} (member : row ∈ system.returned (.get transaction page access))
    (here : row.place.map RecordId.page = some page) : row.Fits := by
  have exact : system.store.Exact page :=
    coherent.store.exact fun cached present => by
      rw [absent] at present
      cases present
  have fetched := exact.getPage transaction page access
  simp only [returned] at member
  generalize system.store.getPage transaction page access = result at fetched member
  cases fetched with
  | failed error kept => cases member
  | @done store cached kept copies => exact copies cached rfl row member here

/-- For a page that is not dirty, evicting it or raising the capacity changes no later answer, rows
being compared as they are stored, except for refusals for want of room. The page goes on showing
the very same values, in runs that insert nothing that is cut, iff all its cached rows `Fits`. -/
theorem evict_unnoticed_iff {allowed : Operation → Prop} (fresh : start.Fresh)
    (run : Run allowed start history system) {page : PageId}
    (clean : ∀ cached, system.store.cache[page]? = some cached → cached.isClean = true)
    (preference : Preference) {capacity : Nat} (smaller : system.store.capacity ≤ capacity) :
    (∀ events reached, Run (fun _ => True) system events reached →
      (∀ event ∈ events, event.answer.Stands system.store.capacity capacity) →
      ((system.without page preference capacity).performAll (events.map Event.operation)).1 =
        events) ∧
    ((∀ events reached, Run Operation.Fitting system events reached →
      (∀ event ∈ events, event.answer.Stands system.store.capacity capacity) →
      ∀ operation, (reached.perform operation).1.Stands system.store.capacity capacity →
      ((system.without page preference capacity).performAll
        (events.map Event.operation)).2.shownOf page operation = reached.shownOf page operation) ↔
      ∀ cached, system.store.cache[page]? = some cached →
        ∀ row, row ∈ cached.page.rows → row.Fits) := by
  have coherent := run.coherent fresh.coherent
  have twin := coherent.without clean preference smaller
  have absent : (system.without page preference capacity).store.cache[page]? = none := by
    refine (lookup_erase system.store.cache page page).trans ?_
    exact if_pos rfl
  refine ⟨fun events reached later stands => (twin.run later stands).1, ?_, ?_⟩
  · intro unnoticed cached present row member
    -- some transaction can get the page in the present state, so the empty run is enough
    obtain ⟨table, -, faithful⟩ := coherent.store.faithful page cached present
    obtain ⟨transaction, got, shown⟩ := returned_of_cached present
    have same := unnoticed [] system .start (fun _ member => absurd member List.not_mem_nil)
      (.get transaction page .readOnly)
    have listed : (row.place, row.values) ∈
        system.shownOf page (.get transaction page .readOnly) := by
      rw [mem_shownOf_iff, shown]
      exact ⟨row, member, faithful.place_of_mem member, rfl, rfl⟩
    rw [← same fun crowded => absurd crowded got, List.map_nil, performAll,
      mem_shownOf_iff] at listed
    obtain ⟨other, there, here, -, values⟩ := listed
    have fits : other.Fits := fits_of_uncached twin.rightCoherent absent there here
    rw [Row.Fits, values] at fits
    exact fits
  · intro fits events reached later stands operation last
    -- no copy of the page has a row that would be cut, and then none ever gets one
    have alike : system.Alike page system.store.capacity capacity
        (system.without page preference capacity) := by
      refine ⟨twin, ?_, ?_, ?_⟩
      · exact coherent.store.exact fun copy copied row member _ => fits copy copied row member
      · apply twin.rightCoherent.store.exact
        intro copy copied
        rw [absent] at copied
        cases copied
      · intro name scan other found foundToo
        have same : scan = other := Option.some.inj (found.symm.trans foundToo)
        rw [same]
        exact List.forall₂_same.mpr fun row _ => Row.Alike.refl page row
    exact (Alike.run later alike stands).shownOf_eq last

/-- A committed number on a cached page. Evicting the page, or raising the capacity, changes no
answer. -/
theorem evict_unnoticed_iff_small :
    ∃ history system cached, small.Fresh ∧ Run Operation.Ordinary small history system ∧
      system.store.cache[numbers.page 0]? = some cached ∧ cached.isClean = true ∧
      cached.page.rows.map Row.values = [[.int 5]] ∧
      ∀ preference events reached, Run Operation.Fitting system events reached →
        (∀ event ∈ events, event.answer.Stands system.store.capacity 3) →
        ∀ operation, (reached.perform operation).1.Stands system.store.capacity 3 →
        ((system.without (numbers.page 0) preference 3).performAll
          (events.map Event.operation)).2.shownOf (numbers.page 0) operation =
            reached.shownOf (numbers.page 0) operation := by
  obtain ⟨history, system, run, room, cached, present, clean, rows⟩ :
      ∃ history system, Run Operation.Ordinary small history system ∧
        system.store.capacity = 2 ∧ ∃ cached, system.store.cache[numbers.page 0]? = some cached ∧
        cached.isClean = true ∧ cached.page.rows.map Row.values = [[.int 5]] := by
    have run := Run.step (.insert ⟨1⟩ ⟨7⟩ ⟨numbers.schema, [.int 5], none, rfl⟩)
      (.start : Run Operation.Ordinary small [] small) trivial
      (Store.countable_single rfl (by decide +kernel))
    have run := Run.step (.commit ⟨1⟩) run trivial
      (Store.countable_single rfl (by decide +kernel))
    exact ⟨_, _, run, rfl, _, rfl, rfl, rfl⟩
  have only : ∀ other, system.store.cache[numbers.page 0]? = some other → cached = other :=
    fun other found => Option.some.inj (present.symm.trans found)
  have fits : ∀ row, row ∈ cached.page.rows → row.Fits := by
    intro row member value stored
    have listed : row.values ∈ cached.page.rows.map Row.values := List.mem_map_of_mem member
    rw [rows, List.mem_singleton] at listed
    rw [listed, List.mem_singleton] at stored
    rw [stored]
    trivial
  refine ⟨history, system, cached, small_fresh, run, present, clean, rows, ?_⟩
  intro preference
  refine (evict_unnoticed_iff small_fresh run (fun other found => only other found ▸ clean)
    preference ?_).2.mpr fun other found => only other found ▸ fits
  rw [room]
  decide

end System

/-! ### A text that is cut -/

def texts : Table := ⟨⟨7⟩, "texts", .ofTypes [.text], ⟨0, 133⟩⟩

def System.wordy : System :=
  ⟨(Store.start ⟨"", [], ∅, (∅ : Std.ExtTreeMap FileId Content).insert 0
      (.ofList (List.replicate 133 0)), 1⟩ 2 .standard).register texts,
    fun _ => none⟩

namespace System

theorem wordy_fresh : wordy.Fresh :=
  ⟨.single texts, Store.countable_single rfl (by decide +kernel), rfl, ⟨rfl, rfl⟩, fun _ => rfl⟩

set_option maxRecDepth 2000 in
/-- A committed text of 129 characters. The cached page shows all of them, and 128 once it was
evicted. -/
theorem evict_noticed :
    ∃ history system, wordy.Fresh ∧ Run Operation.Ordinary wordy history system ∧
      (system.store.cache[texts.page 0]?).map PageCopy.isClean = some true ∧
      (system.perform .evict).2.store.isCached (texts.page 0) = false ∧
      system.shownOf (texts.page 0) (.get ⟨2⟩ (texts.page 0) .readOnly) =
        [(some ⟨texts.page 0, 0⟩, [.text (String.ofList (List.replicate 129 'a'))])] ∧
      (system.perform .evict).2.shownOf (texts.page 0) (.get ⟨2⟩ (texts.page 0) .readOnly) =
        [(some ⟨texts.page 0, 0⟩, [.text (String.ofList (List.replicate 128 'a'))])] ∧
      (system.perform .evict).2.shownOf (texts.page 0) (.get ⟨2⟩ (texts.page 0) .readOnly) ≠
        system.shownOf (texts.page 0) (.get ⟨2⟩ (texts.page 0) .readOnly) := by
  have run := Run.step (.insert ⟨1⟩ ⟨7⟩
      ⟨texts.schema, [.text (String.ofList (List.replicate 129 'a'))], none, rfl⟩)
    (.start : Run Operation.Ordinary wordy [] wordy) trivial
    (Store.countable_single rfl (by decide +kernel))
  have run := Run.step (.commit ⟨1⟩) run trivial
    (Store.countable_single rfl (by decide +kernel))
  exact ⟨_, _, wordy_fresh, run, by decide +kernel⟩

end System

end RecordStore
