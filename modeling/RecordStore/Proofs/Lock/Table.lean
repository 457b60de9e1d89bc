import RecordStore.Lock.Table

set_option autoImplicit false

/-! The modes held determine a lock table up to its queues: granting raises one mode, releasing
removes one, and the index lists the pages that are held. -/

namespace RecordStore

namespace LockMode

def raise (former : Option LockMode) (mode : LockMode) : LockMode :=
  if former = some .exclusive then .exclusive else mode

/-- Whether the mode of another transaction bars a request. -/
def bars (other : Option LockMode) (mode : LockMode) : Prop :=
  other = some .exclusive ∨ (other = some .shared ∧ mode = .exclusive)

end LockMode

namespace LockRecord

def modeOf (record : LockRecord) (transaction : TransactionId) : Option LockMode :=
  if record.holds transaction then some record.mode else none

theorem modeOf_shared (holders : TransactionSet) (transaction : TransactionId) :
    (LockRecord.shared holders).modeOf transaction =
      if holders.contains transaction then some .shared else none := rfl

theorem modeOf_exclusive (holder transaction : TransactionId) :
    (LockRecord.exclusive holder).modeOf transaction =
      if holder = transaction then some .exclusive else none := by
  simp only [modeOf, holds, mode, beq_iff_eq]

end LockRecord

namespace LockTable

def modeOf (table : LockTable) (transaction : TransactionId) (page : PageId) : Option LockMode :=
  table.records[page]?.bind fun record => record.modeOf transaction

def Inhabited (table : LockTable) : Prop :=
  ∀ page, table.records[page]?.isSome → ∃ holder, (table.modeOf holder page).isSome

structure Consistent (table : LockTable) : Prop where
  indexed : ∀ transaction page,
    page ∈ table.heldPages transaction ↔ (table.modeOf transaction page).isSome
  inhabited : table.Inhabited

theorem modeOf_of_record {table : LockTable} {page : PageId} {record : LockRecord}
    (present : table.records[page]? = some record) (transaction : TransactionId) :
    table.modeOf transaction page = record.modeOf transaction := by
  rw [modeOf, present]
  rfl

theorem modeOf_of_vacant {table : LockTable} {page : PageId}
    (absent : table.records[page]? = none) (transaction : TransactionId) :
    table.modeOf transaction page = none := by
  rw [modeOf, absent]
  rfl

theorem holds_eq (table : LockTable) (transaction : TransactionId) (page : PageId) :
    table.holds transaction page = (table.modeOf transaction page).isSome := by
  unfold holds modeOf
  cases table.records[page]? with
  | none => rfl
  | some record =>
      simp only [Option.bind_some, LockRecord.modeOf]
      cases record.holds transaction <;> rfl

theorem mem_pagesOf_iff {table : LockTable} (consistent : table.Consistent)
    (transaction : TransactionId) (page : PageId) :
    page ∈ table.pagesOf transaction ↔ (table.modeOf transaction page).isSome := by
  rw [pagesOf, Std.ExtTreeSet.mem_toList, consistent.indexed]

theorem alone_of_exclusive {table : LockTable} {holder other : TransactionId} {page : PageId}
    (exclusive : table.modeOf holder page = some .exclusive)
    (held : (table.modeOf other page).isSome) : other = holder := by
  cases present : table.records[page]? with
  | none =>
      rw [modeOf_of_vacant present] at held
      cases held
  | some record =>
      rw [modeOf_of_record present] at exclusive held
      cases record with
      | shared holders =>
          rw [LockRecord.modeOf_shared] at exclusive
          split at exclusive <;> cases exclusive
      | exclusive owner =>
          rw [LockRecord.modeOf_exclusive] at exclusive held
          split at exclusive
          · next same =>
              split at held
              · next also => exact also.symm.trans same
              · cases held
          · cases exclusive

/-! ### Changing one record -/

theorem modeOf_insert (table : LockTable) (held : Std.ExtTreeMap TransactionId PageSet)
    (transaction : TransactionId) (page other : PageId) (record : LockRecord) :
    ({ table with records := table.records.insert page record, held := held } : LockTable).modeOf
        transaction other =
      if page = other then record.modeOf transaction else table.modeOf transaction other := by
  simp only [modeOf, Std.ExtTreeMap.getElem?_insert, Std.LawfulEqCmp.compare_eq_iff_eq]
  split <;> rfl

theorem modeOf_erase (table : LockTable) (transaction : TransactionId) (page other : PageId) :
    ({ table with records := table.records.erase page } : LockTable).modeOf transaction other =
      if page = other then none else table.modeOf transaction other := by
  simp only [modeOf, Std.ExtTreeMap.getElem?_erase, Std.LawfulEqCmp.compare_eq_iff_eq]
  split <;> rfl

end LockTable

/-! ### Granting -/

theorem compare_beq_eq (left right : TransactionId) :
    (compare left right == .eq) = decide (left = right) := by
  rw [Bool.eq_iff_iff, beq_iff_eq, decide_eq_true_iff, Std.LawfulEqCmp.compare_eq_iff_eq]

namespace TransactionSet

theorem contains_insert (holders : TransactionSet) (holder other : TransactionId) :
    Std.ExtTreeSet.contains (holders.insert holder) other =
      (decide (holder = other) || holders.contains other) := by
  rw [Std.ExtTreeSet.contains_insert, compare_beq_eq]

theorem contains_erase (holders : TransactionSet) (holder other : TransactionId) :
    Std.ExtTreeSet.contains (holders.erase holder) other =
      (!decide (holder = other) && holders.contains other) := by
  rw [Std.ExtTreeSet.contains_erase, bne, compare_beq_eq]

theorem contains_empty (holder : TransactionId) :
    Std.ExtTreeSet.contains (∅ : TransactionSet) holder = false :=
  Std.ExtTreeSet.contains_empty

theorem eq_empty_of_size {holders : TransactionSet} (none : holders.size = 0) : holders = ∅ :=
  Std.ExtTreeSet.eq_empty_iff_size_eq_zero.mpr none

theorem eq_of_size_one {holders : TransactionSet} {holder other : TransactionId}
    (single : holders.size = 1) (member : holders.contains holder = true)
    (present : holders.contains other = true) : other = holder := by
  have left : (holders.erase holder).size = 0 := by
    rw [Std.ExtTreeSet.size_erase, if_pos member, single]
  have gone : Std.ExtTreeSet.contains (holders.erase holder) other = false := by
    rw [eq_empty_of_size left, contains_empty]
  rw [contains_erase, present, Bool.and_true, Bool.not_eq_false', decide_eq_true_eq] at gone
  exact gone.symm

theorem size_one {holders : TransactionSet} {holder : TransactionId}
    (member : holders.contains holder = true)
    (only : ∀ other, holders.contains other = true → other = holder) : holders.size = 1 := by
  have empty : holders.erase holder = ∅ := by
    apply Std.ExtTreeSet.ext_contains
    intro other
    rw [contains_empty, contains_erase]
    cases present : holders.contains other with
    | false => rw [Bool.and_false]
    | true => rw [only other present, decide_eq_true rfl, Bool.not_true, Bool.false_and]
  have left : (holders.erase holder).size = 0 := Std.ExtTreeSet.eq_empty_iff_size_eq_zero.mp empty
  rw [Std.ExtTreeSet.size_erase, if_pos member] at left
  have some : holders.size ≠ 0 := by
    intro none
    rw [eq_empty_of_size none, contains_empty] at member
    cases member
  omega

end TransactionSet

namespace LockRecord

theorem modeOf_first (transaction other : TransactionId) (mode : LockMode) :
    (first transaction mode).modeOf other =
      if other = transaction then some mode else none := by
  cases mode with
  | shared =>
      rw [first, modeOf_shared, TransactionSet.contains_insert, TransactionSet.contains_empty,
        Bool.or_false]
      by_cases same : other = transaction
      · rw [if_pos same, decide_eq_true same.symm]
        rfl
      · rw [if_neg same, decide_eq_false fun equal => same equal.symm]
        rfl
  | exclusive =>
      rw [first, modeOf_exclusive]
      by_cases same : other = transaction
      · rw [if_pos same, if_pos same.symm]
      · rw [if_neg same, if_neg fun equal => same equal.symm]

theorem modeOf_grant {record granted : LockRecord} {transaction : TransactionId} {mode : LockMode}
    (agreed : record.grant transaction mode = some granted) (other : TransactionId) :
    granted.modeOf other =
      if other = transaction then some (LockMode.raise (record.modeOf transaction) mode)
      else record.modeOf other := by
  unfold grant at agreed
  split at agreed
  · next holder =>
      split at agreed
      · next same =>
          cases agreed
          subst same
          by_cases itself : other = holder
          · subst itself
            rw [if_pos rfl, modeOf_exclusive, if_pos rfl]
            rfl
          · rw [if_neg itself]
      · cases agreed
  · next holders =>
      cases agreed
      rw [modeOf_shared, modeOf_shared, modeOf_shared, TransactionSet.contains_insert]
      by_cases itself : other = transaction
      · subst itself
        rw [decide_eq_true rfl, Bool.true_or, if_pos rfl, if_pos rfl]
        split <;> rfl
      · rw [decide_eq_false fun equal => itself equal.symm, Bool.false_or, if_neg itself]
  · next holders =>
      split at agreed
      · next alone =>
          cases agreed
          rw [modeOf_exclusive, modeOf_shared, modeOf_shared, if_pos alone.2]
          by_cases itself : other = transaction
          · subst itself
            rw [if_pos rfl, if_pos rfl]
            rfl
          · have absent : ¬ holders.contains other = true := fun present =>
              itself (TransactionSet.eq_of_size_one alone.1 alone.2 present)
            rw [if_neg fun equal => itself equal.symm, if_neg itself, if_neg absent]
      · cases agreed

/-- A record grants a request iff no mode of another transaction bars it. -/
theorem grant_isSome_iff {record : LockRecord} (transaction : TransactionId) (mode : LockMode)
    (inhabited : ∃ holder, (record.modeOf holder).isSome) :
    (record.grant transaction mode).isSome ↔
      ∀ other, other ≠ transaction → ¬ LockMode.bars (record.modeOf other) mode := by
  unfold grant
  split
  · next holder =>
      by_cases same : holder = transaction
      · rw [if_pos same]
        refine ⟨?_, fun _ => rfl⟩
        intro _ other different bars
        rw [modeOf_exclusive, if_neg fun equal => different (equal.symm.trans same)] at bars
        rcases bars with bars | ⟨bars, -⟩ <;> cases bars
      · rw [if_neg same]
        refine ⟨fun granted => (Bool.false_ne_true granted).elim, ?_⟩
        intro free
        refine absurd (Or.inl ?_) (free holder same)
        rw [modeOf_exclusive, if_pos rfl]
  · next holders =>
      refine ⟨?_, fun _ => rfl⟩
      intro _ other _ bars
      rw [modeOf_shared] at bars
      rcases bars with bars | ⟨-, bars⟩
      · split at bars <;> cases bars
      · cases bars
  · next holders =>
      have barred : ∀ other, LockMode.bars ((LockRecord.shared holders).modeOf other) .exclusive ↔
          holders.contains other = true := by
        intro other
        rw [modeOf_shared]
        constructor
        · rintro (bars | ⟨bars, -⟩)
          · split at bars <;> cases bars
          · split at bars
            · next present => exact present
            · cases bars
        · intro present
          exact Or.inr ⟨if_pos present, rfl⟩
      simp only [barred]
      by_cases alone : holders.size = 1 ∧ holders.contains transaction
      · rw [if_pos alone]
        exact ⟨fun _ other different present =>
          different (TransactionSet.eq_of_size_one alone.1 alone.2 present), fun _ => rfl⟩
      · rw [if_neg alone]
        refine ⟨fun granted => (Bool.false_ne_true granted).elim, fun free => absurd ?_ alone⟩
        obtain ⟨holder, held⟩ := inhabited
        have present : holders.contains holder = true := by
          rw [modeOf_shared] at held
          split at held
          · next present => exact present
          · cases held
        have only : ∀ other, holders.contains other = true → other = transaction :=
          fun other member => Decidable.of_not_not fun different => free other different member
        have member : holders.contains transaction = true := only holder present ▸ present
        exact ⟨TransactionSet.size_one member only, member⟩

theorem modeOf_without (record : LockRecord) (transaction other : TransactionId) :
    ((record.without transaction).bind fun left => left.modeOf other) =
      if other = transaction then none else record.modeOf other := by
  cases record with
  | shared holders =>
      have found : (LockRecord.shared (holders.erase transaction)).modeOf other =
          if other = transaction then none else (LockRecord.shared holders).modeOf other := by
        rw [modeOf_shared, modeOf_shared, TransactionSet.contains_erase]
        by_cases same : other = transaction
        · subst same
          rw [decide_eq_true rfl, Bool.not_true, Bool.false_and, if_pos rfl]
          rfl
        · rw [decide_eq_false fun equal => same equal.symm, Bool.not_false, Bool.true_and,
            if_neg same]
      simp only [without]
      split
      · next empty =>
          have nobody : holders.erase transaction = ∅ := Std.ExtTreeSet.isEmpty_iff.mp empty
          rw [← found, nobody, modeOf_shared, TransactionSet.contains_empty]
          rfl
      · exact found
  | exclusive holder =>
      simp only [without]
      split
      · next same =>
          subst same
          rw [modeOf_exclusive]
          by_cases itself : other = holder
          · rw [if_pos itself]
            rfl
          · rw [if_neg itself, if_neg fun equal => itself equal.symm]
            rfl
      · next different =>
          simp only [Option.bind_some, modeOf_exclusive]
          by_cases itself : other = transaction
          · subst itself
            rw [if_neg different, if_pos rfl]
          · rw [if_neg itself]

/-- A record that is left after `without` has a holder. -/
theorem inhabited_without {record left : LockRecord} {transaction : TransactionId}
    (holding : record.holds transaction = true)
    (remaining : record.without transaction = some left) :
    ∃ holder, (left.modeOf holder).isSome := by
  cases record with
  | shared holders =>
      simp only [without] at remaining
      split at remaining
      · cases remaining
      · next some =>
          cases remaining
          have filled : ¬ holders.erase transaction = ∅ := fun empty =>
            some (Std.ExtTreeSet.isEmpty_iff.mpr empty)
          rw [Std.ExtTreeSet.eq_empty_iff_forall_contains, Classical.not_forall] at filled
          obtain ⟨holder, member⟩ := filled
          refine ⟨holder, ?_⟩
          rw [modeOf_shared, if_pos (Bool.not_eq_false _ ▸ member)]
          rfl
  | exclusive holder =>
      have same : holder = transaction := eq_of_beq holding
      rw [without, if_pos same] at remaining
      cases remaining

end LockRecord

/-! ### The table after granting and releasing -/

namespace LockTable

variable {table : LockTable} {transaction : TransactionId} {page : PageId} {mode : LockMode}

/-- The table grants a request iff no mode of another transaction bars it. -/
theorem grant?_isSome_iff (consistent : table.Consistent) (transaction : TransactionId)
    (page : PageId) (mode : LockMode) :
    (table.grant? transaction page mode).isSome ↔
      ∀ other, other ≠ transaction → ¬ LockMode.bars (table.modeOf other page) mode := by
  rw [grant?, Option.isSome_map, grantedRecord?]
  cases present : table.records[page]? with
  | none =>
      refine ⟨?_, fun _ => rfl⟩
      intro _ other _ bars
      rw [modeOf_of_vacant present] at bars
      rcases bars with bars | ⟨bars, -⟩ <;> cases bars
  | some record =>
      obtain ⟨holder, held⟩ := consistent.inhabited page (by rw [present]; rfl)
      simp only [modeOf_of_record present] at held ⊢
      exact LockRecord.grant_isSome_iff transaction mode ⟨holder, held⟩

private theorem granted_record {granted : LockTable}
    (agreed : table.grant? transaction page mode = some granted) :
    ∃ record, granted = { table with
        records := table.records.insert page record
        held := table.held.insert transaction ((table.heldPages transaction).insert page) } ∧
      (∀ other, record.modeOf other =
        if other = transaction then
          some (LockMode.raise (table.modeOf transaction page) mode)
        else table.modeOf other page) := by
  rw [grant?, Option.map_eq_some_iff] at agreed
  obtain ⟨record, chosen, rfl⟩ := agreed
  refine ⟨record, rfl, ?_⟩
  intro other
  rw [grantedRecord?] at chosen
  cases present : table.records[page]? with
  | none =>
      simp only [present, Option.some.injEq] at chosen
      rw [← chosen, LockRecord.modeOf_first, modeOf_of_vacant present, modeOf_of_vacant present]
      rfl
  | some former =>
      simp only [present] at chosen
      rw [modeOf_of_record present, modeOf_of_record present]
      exact LockRecord.modeOf_grant chosen other

/-- `grant?` raises the mode of the requester on that page, and changes no other. -/
theorem modeOf_grant? {granted : LockTable}
    (agreed : table.grant? transaction page mode = some granted)
    (other : TransactionId) (place : PageId) :
    granted.modeOf other place =
      if other = transaction ∧ place = page then
        some (LockMode.raise (table.modeOf transaction page) mode)
      else table.modeOf other place := by
  obtain ⟨record, rfl, modes⟩ := granted_record agreed
  rw [modeOf_insert]
  by_cases here : page = place
  · subst here
    rw [if_pos rfl, modes]
    by_cases itself : other = transaction
    · rw [if_pos itself, if_pos ⟨itself, rfl⟩]
    · rw [if_neg itself, if_neg fun both => itself both.1]
  · rw [if_neg here, if_neg fun both => here both.2.symm]

theorem mem_heldPages_insert (records : Std.ExtTreeMap PageId LockRecord) (pages : PageSet)
    (other : TransactionId) (place : PageId) :
    place ∈ ({ table with
        records := records, held := table.held.insert transaction pages } : LockTable).heldPages
        other ↔
      if transaction = other then place ∈ pages else place ∈ table.heldPages other := by
  simp only [heldPages, Std.ExtTreeMap.getD_insert, Std.LawfulEqCmp.compare_eq_iff_eq]
  split <;> rfl

theorem mem_heldPages_erase (table : LockTable) (transaction other : TransactionId)
    (place : PageId) :
    place ∈ ({ table with held := table.held.erase transaction } : LockTable).heldPages other ↔
      transaction ≠ other ∧ place ∈ table.heldPages other := by
  simp only [heldPages, Std.ExtTreeMap.getD_erase, Std.LawfulEqCmp.compare_eq_iff_eq]
  split
  · next same => simp [same]
  · next different => simp [different]

theorem Consistent.of_same {other : LockTable} (consistent : table.Consistent)
    (records : other.records = table.records) (held : other.held = table.held) :
    other.Consistent := by
  constructor
  · intro transaction page
    have here := consistent.indexed transaction page
    rwa [heldPages, modeOf, ← records, ← held] at here
  · intro page present
    rw [records] at present
    obtain ⟨holder, here⟩ := consistent.inhabited page present
    rw [modeOf, ← records] at here
    exact ⟨holder, here⟩

theorem Consistent.empty : LockTable.empty.Consistent := by
  constructor
  · intro transaction page
    simp [heldPages, modeOf, LockTable.empty]
  · intro page present
    simp [LockTable.empty] at present

theorem Consistent.grant? {granted : LockTable} (consistent : table.Consistent)
    (agreed : table.grant? transaction page mode = some granted) : granted.Consistent := by
  have modes := modeOf_grant? agreed
  obtain ⟨record, same, -⟩ := granted_record agreed
  constructor
  · intro other place
    rw [modes, same]
    rw [mem_heldPages_insert, Std.ExtTreeSet.mem_insert, Std.LawfulEqCmp.compare_eq_iff_eq,
      consistent.indexed, consistent.indexed]
    by_cases itself : transaction = other
    · subst itself
      rw [if_pos rfl]
      by_cases here : page = place
      · simp [here]
      · rw [if_neg fun both => here both.2.symm]
        simp [here]
    · rw [if_neg itself, if_neg fun both => itself both.1.symm]
  · intro place present
    by_cases here : place = page
    · refine ⟨transaction, ?_⟩
      rw [modes, if_pos ⟨rfl, here⟩]
      rfl
    · rw [same] at present
      simp only [Std.ExtTreeMap.getElem?_insert, Std.LawfulEqCmp.compare_eq_iff_eq] at present
      rw [if_neg fun equal => here equal.symm] at present
      obtain ⟨holder, held⟩ := consistent.inhabited place present
      refine ⟨holder, ?_⟩
      rw [modes, if_neg fun both => here both.2]
      exact held

theorem modeOf_settled (table : LockTable) (page : PageId) (left : Option LockRecord)
    (other : TransactionId) (place : PageId) :
    (match left with
      | some left => { table with records := table.records.insert page left }
      | none => ({ table with records := table.records.erase page } : LockTable)).modeOf
        other place =
      if page = place then left.bind fun left => left.modeOf other
      else table.modeOf other place := by
  cases left with
  | none => exact modeOf_erase table other page place
  | some left => exact modeOf_insert table table.held other page place left

theorem modeOf_dropHolder (table : LockTable) (transaction : TransactionId) (page : PageId)
    (other : TransactionId) (place : PageId) :
    (table.dropHolder transaction page).2.modeOf other place =
      if other = transaction ∧ place = page then none else table.modeOf other place := by
  unfold dropHolder
  cases present : table.records[page]? with
  | none =>
      by_cases both : other = transaction ∧ place = page
      · rw [if_pos both, both.2]
        exact modeOf_of_vacant present other
      · rw [if_neg both]
  | some record =>
      have cleared := LockRecord.modeOf_without record transaction other
      simp only
      split
      · refine (modeOf_settled table page (record.without transaction) other place).trans ?_
        rw [cleared, ← modeOf_of_record present]
        by_cases here : page = place
        · subst here
          by_cases itself : other = transaction <;> simp [itself]
        · rw [if_neg here, if_neg fun both => here both.2.symm]
      · next absent =>
          by_cases both : other = transaction ∧ place = page
          · rw [if_pos both, both.1, both.2, modeOf_of_record present, LockRecord.modeOf,
              if_neg absent]
          · rw [if_neg both]

theorem held_dropHolder : (table.dropHolder transaction page).2.held = table.held := by
  unfold dropHolder
  split
  · rfl
  · split
    · split <;> rfl
    · rfl

theorem Inhabited.dropHolder (inhabited : table.Inhabited) :
    (table.dropHolder transaction page).2.Inhabited := by
  intro place present
  have modes := fun other => modeOf_dropHolder table transaction page other place
  by_cases here : place = page
  · subst here
    unfold LockTable.dropHolder at present modes ⊢
    cases former : table.records[place]? with
    | none => simp [former] at present
    | some record =>
        simp only [former] at present modes ⊢
        split at present
        · next holding =>
            rw [if_pos holding] at modes ⊢
            cases remaining : record.without transaction with
            | none => simp [remaining] at present
            | some left =>
                obtain ⟨holder, held⟩ := LockRecord.inhabited_without holding remaining
                refine ⟨holder, ?_⟩
                simpa [remaining, modeOf] using held
        · next absent =>
            rw [if_neg absent] at modes ⊢
            exact inhabited place present
  · have records : (table.dropHolder transaction page).2.records[place]? =
        table.records[place]? := by
      unfold LockTable.dropHolder
      split
      · rfl
      · split
        · split
          · simp only [Std.ExtTreeMap.getElem?_insert, Std.LawfulEqCmp.compare_eq_iff_eq]
            rw [if_neg fun equal => here equal.symm]
          · simp only [Std.ExtTreeMap.getElem?_erase, Std.LawfulEqCmp.compare_eq_iff_eq]
            rw [if_neg fun equal => here equal.symm]
        · rfl
    rw [records] at present
    obtain ⟨holder, held⟩ := inhabited place present
    refine ⟨holder, ?_⟩
    rw [modes, if_neg fun both => here both.2]
    exact held

theorem records_unindex (table : LockTable) (transaction : TransactionId) (page : PageId) :
    (table.unindex transaction page).records = table.records := by
  unfold unindex
  split
  · rfl
  · dsimp only
    split <;> rfl

theorem Inhabited.unindex (inhabited : table.Inhabited) (transaction : TransactionId)
    (page : PageId) : (table.unindex transaction page).Inhabited := by
  intro place present
  rw [records_unindex] at present
  obtain ⟨holder, held⟩ := inhabited place present
  rw [modeOf, ← records_unindex table transaction page] at held
  exact ⟨holder, held⟩

theorem mem_heldPages_unindex (table : LockTable) (transaction : TransactionId) (page : PageId)
    (other : TransactionId) (place : PageId) :
    place ∈ (table.unindex transaction page).heldPages other ↔
      ¬ (other = transaction ∧ place = page) ∧ place ∈ table.heldPages other := by
  have left : place ∈ (table.heldPages transaction).erase page ↔
      page ≠ place ∧ place ∈ table.heldPages transaction := by
    rw [Std.ExtTreeSet.mem_erase, Ne, Std.LawfulEqCmp.compare_eq_iff_eq]
  unfold unindex
  cases present : table.held[transaction]? with
  | none =>
      refine ⟨fun member => ⟨fun both => ?_, member⟩, fun member => member.2⟩
      rw [both.1, heldPages, Std.ExtTreeMap.getD_eq_getD_getElem?, present] at member
      exact Std.ExtTreeSet.not_mem_empty member
  | some pages =>
      have same : table.heldPages transaction = pages := by
        rw [heldPages, Std.ExtTreeMap.getD_eq_getD_getElem?, present]
        rfl
      rw [same] at left
      simp only
      split
      · next empty =>
          rw [Std.ExtTreeSet.isEmpty_iff.mp empty] at left
          rw [mem_heldPages_erase]
          refine ⟨fun member => ⟨fun both => member.1 both.1.symm, member.2⟩,
            fun member => ⟨fun equal => ?_, member.2⟩⟩
          subst equal
          rw [same] at member
          exact Std.ExtTreeSet.not_mem_empty
            (left.mpr ⟨fun equal => member.1 ⟨rfl, equal.symm⟩, member.2⟩)
      · rw [mem_heldPages_insert table.records]
        by_cases itself : transaction = other
        · subst itself
          rw [if_pos rfl, left, same]
          simp [eq_comm]
        · rw [if_neg itself]
          refine ⟨fun member => ⟨fun both => itself both.1.symm, member⟩, fun member => member.2⟩

theorem modeOf_release (other : TransactionId) (place : PageId) :
    (table.release transaction page).2.modeOf other place =
      if other = transaction ∧ place = page then none else table.modeOf other place := by
  rw [release, modeOf_dropHolder, modeOf, modeOf, records_unindex]

theorem Consistent.release (consistent : table.Consistent) :
    (table.release transaction page).2.Consistent := by
  constructor
  · intro other place
    rw [modeOf_release]
    rw [LockTable.release, heldPages, held_dropHolder]
    have here := mem_heldPages_unindex table transaction page other place
    rw [heldPages] at here
    rw [here, consistent.indexed]
    by_cases both : other = transaction ∧ place = page
    · simp [both]
    · rw [if_neg both]
      exact ⟨fun held => held.2, fun held => ⟨both, held⟩⟩
  · exact (consistent.inhabited.unindex transaction page).dropHolder

theorem modeOf_dropAll (pages : List PageId) (other : TransactionId) (place : PageId) :
    (table.dropAll transaction pages).2.modeOf other place =
      if other = transaction ∧ place ∈ pages then none else table.modeOf other place := by
  induction pages generalizing table with
  | nil => rw [if_neg fun both => List.not_mem_nil both.2]; rfl
  | cons page pages ih =>
      refine (@ih (table.dropHolder transaction page).2).trans ?_
      rw [modeOf_dropHolder]
      by_cases later : other = transaction ∧ place ∈ pages
      · rw [if_pos later, if_pos ⟨later.1, List.mem_cons_of_mem page later.2⟩]
      · rw [if_neg later]
        by_cases first : other = transaction ∧ place = page
        · rw [if_pos first, if_pos ⟨first.1, first.2 ▸ List.mem_cons_self⟩]
        · rw [if_neg first, if_neg]
          rintro ⟨itself, member⟩
          rcases List.mem_cons.mp member with here | there
          · exact first ⟨itself, here⟩
          · exact later ⟨itself, there⟩

theorem held_dropAll (pages : List PageId) :
    (table.dropAll transaction pages).2.held = table.held := by
  induction pages generalizing table with
  | nil => rfl
  | cons page pages ih =>
      exact (@ih (table.dropHolder transaction page).2).trans held_dropHolder

theorem Inhabited.dropAll (pages : List PageId) (inhabited : table.Inhabited) :
    (table.dropAll transaction pages).2.Inhabited := by
  induction pages generalizing table with
  | nil => exact inhabited
  | cons page pages ih =>
      exact @ih (table.dropHolder transaction page).2 inhabited.dropHolder

/-- After `releaseAll` the transaction holds nothing, and the others what they held. -/
theorem modeOf_releaseAll (consistent : table.Consistent) (other : TransactionId)
    (place : PageId) :
    (table.releaseAll transaction).2.modeOf other place =
      if other = transaction then none else table.modeOf other place := by
  have listed := mem_pagesOf_iff consistent transaction place
  rw [releaseAll, modeOf_dropAll]
  by_cases itself : other = transaction
  · subst itself
    rw [if_pos rfl]
    by_cases held : (table.modeOf other place).isSome
    · rw [if_pos ⟨rfl, listed.mpr held⟩]
    · rw [if_neg fun both => held (listed.mp both.2)]
      exact Option.not_isSome_iff_eq_none.mp held
  · rw [if_neg itself, if_neg fun both => itself both.1]
    rfl

theorem Consistent.releaseAll (consistent : table.Consistent) :
    (table.releaseAll transaction).2.Consistent := by
  constructor
  · intro other place
    rw [modeOf_releaseAll consistent, LockTable.releaseAll, heldPages, held_dropAll]
    have here := mem_heldPages_erase table transaction other place
    rw [heldPages] at here
    rw [here, consistent.indexed]
    by_cases itself : other = transaction
    · simp [itself]
    · rw [if_neg itself]
      exact ⟨fun held => held.2, fun held => ⟨fun equal => itself equal.symm, held⟩⟩
  · exact Inhabited.dropAll _ fun place present => consistent.inhabited place present

end LockTable

end RecordStore
