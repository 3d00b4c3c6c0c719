import Porthmos.QueueTaking

/-!
# Closing the rows that lost jobs

The second loop of `remove_jobs` visits each row that lost a job.  It drops the
row, moves it under its new first job, or shortens its order.  Until a row has
been visited it stays under its old key.
-/

namespace Porthmos

namespace TransferQueue

/-- The key a row has while the rows under `todo` have not been visited. -/
def keyWhile (before after : Jobs) (todo : List Nat) (kind : RowKind) : Option Nat :=
  (leader before kind).bind fun key => if key ∈ todo then some key else leader after kind

/-- What the second loop of `remove_jobs` maintains. -/
structure Closing (start : TransferQueue) (taken : Removal) (todo : List Nat)
    (removal : Removal) : Prop where
  jobs_eq : removal.queue.jobs = taken.queue.jobs
  sets : removal.queue.SetsIndexed taken.queue.jobs
  rowOf_eq : ∀ id, removal.queue.rowOf id = (taken.queue.jobs.get? id).bind fun job =>
    keyWhile start.jobs taken.queue.jobs todo (kindOf job)
  batchRow_eq : ∀ batch, removal.queue.batchRow batch =
    keyWhile start.jobs taken.queue.jobs todo (.batch batch)
  present : ∀ kind key, keyWhile start.jobs taken.queue.jobs todo kind = some key →
    ∃ counters, removal.queue.rows.get? key = some counters
  keyed : ∀ key counters, removal.queue.rows.get? key = some counters →
    keyWhile start.jobs taken.queue.jobs todo counters.kind = some key
  waiting : ∀ key counters, removal.queue.rows.get? key = some counters → key ∈ todo →
    ∃ before, start.rows.get? key = some before ∧ TakenRow taken.queue.jobs before counters
  settled : ∀ key counters, removal.queue.rows.get? key = some counters → key ∉ todo →
    RowMatches taken.queue.jobs key counters
  labelled : start.Labelled → ∀ key counters first, removal.queue.rows.get? key = some counters →
    start.jobs.get? key = some first → counters.label = expectedLabel start.batchLabels first
  nextId_eq : removal.queue.nextId = start.nextId
  nextBatchId_eq : removal.queue.nextBatchId = start.nextBatchId
  batchLabels_eq : removal.queue.batchLabels = start.batchLabels
  touchedBatches_eq : removal.touchedBatches = taken.touchedBatches
  noted_iff : ∀ kind done, (kind, done) ∈ removal.wasFinished ↔
    (kind, done) ∈ taken.wasFinished ∧
      (keyWhile start.jobs taken.queue.jobs todo kind).isSome = true
  noted_nodup : (removal.wasFinished.map Prod.fst).Nodup
  changes_eq : ∃ dropped : List RowKind, dropped.Nodup ∧
    removal.queue.changes = start.changes ++ dropped.map RowChange.removed ∧
    ∀ kind, kind ∈ dropped ↔ (leader start.jobs kind).isSome = true ∧
      keyWhile start.jobs taken.queue.jobs todo kind = none

section KeyWhile

variable {before after : Jobs} {todo : List Nat} {kind row : RowKind} {key : Nat}

theorem eq_of_leader_eq (leads : leader before kind = some key)
    (rowLeads : leader before row = some key) : kind = row := by
  obtain ⟨first, found, firstKind⟩ := kindOf_of_leader leads
  obtain ⟨again, againFound, againKind⟩ := kindOf_of_leader rowLeads
  rw [found, Option.some.injEq] at againFound
  rw [← firstKind, ← againKind, againFound]

theorem keyWhile_cons_self (leads : leader before row = some key) :
    keyWhile before after (key :: todo) row = some key := by
  simp [keyWhile, leads]

theorem keyWhile_visited (leads : leader before row = some key) (visited : key ∉ todo) :
    keyWhile before after todo row = leader after row := by
  simp [keyWhile, leads, visited]

theorem keyWhile_cons_of_ne (leads : leader before row = some key) (other : kind ≠ row) :
    keyWhile before after (key :: todo) kind = keyWhile before after todo kind := by
  unfold keyWhile
  cases kindLeads : leader before kind with
  | none => rfl
  | some kindKey =>
    have different : kindKey ≠ key := by
      rintro rfl
      exact other (eq_of_leader_eq kindLeads leads)
    simp [different]

theorem keyWhile_nil (sub : ∀ id job, after.get? id = some job → before.get? id = some job)
    (kind : RowKind) : keyWhile before after [] kind = leader after kind := by
  unfold keyWhile
  cases leads : leader before kind with
  | none =>
    symm
    rw [Option.bind_none, leader_eq_none_iff]
    intro id member
    obtain ⟨job, found, inRow⟩ := mem_members_iff.mp member
    exact leader_eq_none_iff.mp leads id (mem_members_iff.mpr ⟨job, sub id job found, inRow⟩)
  | some key => simp

theorem mem_of_keyWhile (sub : ∀ id job, after.get? id = some job → before.get? id = some job)
    (keyed : keyWhile before after todo kind = some key) :
    ∃ job, before.get? key = some job ∧ kindOf job = kind := by
  unfold keyWhile at keyed
  cases leads : leader before kind with
  | none => simp [leads] at keyed
  | some oldKey =>
    simp only [leads, Option.bind_some] at keyed
    split_ifs at keyed with waiting
    · cases keyed
      exact kindOf_of_leader leads
    · obtain ⟨job, found, inRow⟩ := kindOf_of_leader keyed
      exact ⟨job, sub key job found, inRow⟩

theorem eq_of_keyWhile_eq (sub : ∀ id job, after.get? id = some job → before.get? id = some job)
    (keyed : keyWhile before after todo kind = some key)
    (rowKeyed : keyWhile before after todo row = some key) : kind = row := by
  obtain ⟨job, found, inRow⟩ := mem_of_keyWhile sub keyed
  obtain ⟨again, againFound, againRow⟩ := mem_of_keyWhile sub rowKeyed
  rw [found, Option.some.injEq] at againFound
  rw [← inRow, ← againRow, againFound]

end KeyWhile

section Members

variable {start : TransferQueue} {taken : Removal} {key : Nat} {kind : RowKind}

theorem Taking.order_filter (taking : Taking start taken) (indexed : start.Indexed)
    (leads : leader start.jobs kind = some key) {removed : List Nat}
    (isRemoved : ∀ id, id ∈ removed ↔ start.rowOf id = some key ∧ taken.queue.jobs.get? id = none) :
    (members start.jobs kind).keys.filter (fun id => decide (id ∉ removed)) =
      (members taken.queue.jobs kind).keys := by
  refine OrderedMap.eq_of_pairwise_lt ?_ (OrderedMap.keys_pairwise _) fun id => ?_
  · exact (OrderedMap.keys_pairwise _).filter _
  · rw [List.mem_filter, mem_members_iff, mem_members_iff, decide_eq_true_iff, isRemoved]
    constructor
    · rintro ⟨⟨job, found, inRow⟩, kept⟩
      refine ⟨job, ?_, inRow⟩
      cases still : taken.queue.jobs.get? id with
      | none =>
        refine absurd ⟨?_, still⟩ kept
        rw [indexed.rowOf_eq, recountRowOf, found]
        simpa [inRow] using leads
      | some again => rw [← taking.jobs_sub _ _ still, found]
    · rintro ⟨job, found, inRow⟩
      exact ⟨⟨job, taking.jobs_sub _ _ found, inRow⟩, by simp [found]⟩

theorem Taking.members_of_untouched (taking : Taking start taken) (indexed : start.Indexed)
    (leads : leader start.jobs kind = some key)
    (untouched : taken.removedByRow.get? key = none) :
    members taken.queue.jobs kind = members start.jobs kind := by
  refine OrderedMap.ext_get? fun id => ?_
  rw [get?_members, get?_members]
  cases still : taken.queue.jobs.get? id with
  | some job => rw [taking.jobs_sub _ _ still]
  | none =>
    cases found : start.jobs.get? id with
    | none => rfl
    | some job =>
      have notTaken := (taking.taken_iff key id).not.mp (by simp [untouched])
      have otherRow : kindOf job ≠ kind := by
        rintro rfl
        refine notTaken ⟨?_, still⟩
        rw [indexed.rowOf_eq, recountRowOf, found]
        exact leads
      simp [otherRow]

end Members

theorem Taking.keyWhile_start {start : TransferQueue} {taken : Removal}
    (taking : Taking start taken) (indexed : start.Indexed) (kind : RowKind) :
    keyWhile start.jobs taken.queue.jobs taken.removedByRow.keys kind = leader start.jobs kind := by
  unfold keyWhile
  cases leads : leader start.jobs kind with
  | none => rfl
  | some key =>
    rw [Option.bind_some]
    split_ifs with waiting
    · rfl
    · have untouched : taken.removedByRow.get? key = none := by
        rwa [OrderedMap.mem_keys_iff, ← Option.ne_none_iff_exists', not_not] at waiting
      rw [leader, taking.members_of_untouched indexed leads untouched]
      exact leads

theorem closing_start {start : TransferQueue} {taken : Removal} (taking : Taking start taken)
    (indexed : start.Indexed) : Closing start taken taken.removedByRow.keys taken := by
  have startRow {key : Nat} {counters : RowCounters}
      (row : taken.queue.rows.get? key = some counters) : ∃ before,
        start.rows.get? key = some before ∧ TakenRow taken.queue.jobs before counters := by
    cases beforeRow : start.rows.get? key with
    | none => simp [taking.rows_none key beforeRow] at row
    | some before =>
      obtain ⟨current, currentRow, takenRow⟩ := taking.rows_some key before beforeRow
      rw [row, Option.some.injEq] at currentRow
      exact ⟨before, rfl, currentRow ▸ takenRow⟩
  constructor
  case jobs_eq => rfl
  case sets => exact taking.sets
  case rowOf_eq =>
    intro id
    rw [taking.rowOf_eq]
    cases found : taken.queue.jobs.get? id with
    | none => rfl
    | some job =>
      rw [Option.bind_some, Option.bind_some, taking.keyWhile_start indexed, indexed.rowOf_eq,
        recountRowOf, taking.jobs_sub _ _ found, Option.bind_some]
  case batchRow_eq =>
    intro batch
    rw [taking.keyWhile_start indexed, taking.batchRow_eq, indexed.batchRow_eq, recountBatchRow]
  case present =>
    intro kind key keyed
    rw [taking.keyWhile_start indexed] at keyed
    obtain ⟨before, beforeRow⟩ := indexed.rows.present kind key keyed
    obtain ⟨current, currentRow, _⟩ := taking.rows_some key before beforeRow
    exact ⟨current, currentRow⟩
  case keyed =>
    intro key counters row
    obtain ⟨before, beforeRow, takenRow⟩ := startRow row
    rw [taking.keyWhile_start indexed, takenRow.kind]
    exact (indexed.rows.recounted key before beforeRow).leads
  case waiting => exact fun key counters row _ => startRow row
  case settled =>
    intro key counters row visited
    obtain ⟨before, beforeRow, kind, _, direction, order, counts, bytesTotal⟩ := startRow row
    have matched := indexed.rows.recounted key before beforeRow
    have untouched : taken.removedByRow.get? key = none := by
      rwa [OrderedMap.mem_keys_iff, ← Option.ne_none_iff_exists', not_not] at visited
    have sameMembers := taking.members_of_untouched indexed matched.leads untouched
    constructor
    · rw [kind, leader, sameMembers, ← leader, matched.leads]
    · rwa [kind]
    · rw [kind, order, sameMembers, matched.order]
    · rwa [kind]
    · intro first found
      rw [direction, matched.direction first (taking.jobs_sub _ _ found)]
  case labelled =>
    intro labelled key counters first row found
    obtain ⟨before, beforeRow, takenRow⟩ := startRow row
    rw [takenRow.label, labelled key before first beforeRow found]
  case nextId_eq => exact taking.nextId_eq
  case nextBatchId_eq => exact taking.nextBatchId_eq
  case batchLabels_eq => exact taking.batchLabels_eq
  case touchedBatches_eq => rfl
  case noted_iff =>
    intro kind done
    rw [taking.keyWhile_start indexed]
    refine ⟨fun member => ⟨member, ?_⟩, fun both => both.1⟩
    obtain ⟨key, before, beforeRow, rfl, _⟩ := (taking.noted_iff _ _).mp member
    rw [(indexed.rows.recounted key before beforeRow).leads]
    rfl
  case noted_nodup => exact taking.noted_nodup
  case changes_eq =>
    refine ⟨[], List.nodup_nil, by simp [taking.changes_eq], fun kind => ?_⟩
    rw [taking.keyWhile_start indexed]
    cases leader start.jobs kind <;> simp

/-- The keys of the batches once a row has a new key, or none. -/
def setBatchRow (batchRow : Nat → Option Nat) (kind : RowKind) (key : Option Nat) :
    Nat → Option Nat :=
  match kind with
  | .batch batch => Function.update batchRow batch key
  | _ => batchRow

theorem setBatchRow_apply (batchRow : Nat → Option Nat) (kind : RowKind) (key : Option Nat)
    (batch : Nat) :
    setBatchRow batchRow kind key batch = if kind = .batch batch then key else batchRow batch := by
  unfold setBatchRow
  cases kind with
  | batch other =>
    by_cases same : batch = other
    · simp [same]
    · simp [same, Ne.symm same]
  | single id => rfl
  | scan other => rfl

namespace Closing

variable {start : TransferQueue} {taken removal : Removal} {todo : List Nat} {key : Nat}
  {kind : RowKind}

theorem head_row (closing : Closing start taken (key :: todo) removal) (indexed : start.Indexed)
    (leads : leader start.jobs kind = some key) :
    ∃ before current, start.rows.get? key = some before ∧ before.kind = kind ∧
      removal.queue.rows.get? key = some current ∧
      TakenRow taken.queue.jobs before current := by
  obtain ⟨current, row⟩ := closing.present kind key (keyWhile_cons_self leads)
  obtain ⟨before, beforeRow, takenRow⟩ := closing.waiting key current row (by simp)
  exact ⟨before, current, beforeRow,
    (indexed.rows.recounted key before beforeRow).kind_eq leads, row, takenRow⟩

/-- Dropping a row that lost all its jobs. -/
theorem drop (closing : Closing start taken (key :: todo) removal) (taking : Taking start taken)
    (fresh : key ∉ todo) (leads : leader start.jobs kind = some key)
    (emptied : leader taken.queue.jobs kind = none) :
    Closing start taken todo { removal with
        queue := { removal.queue with
          rows := removal.queue.rows.erase key
          batchRow := setBatchRow removal.queue.batchRow kind none }.pushChange (.removed kind)
        wasFinished := removal.wasFinished.filter fun entry => decide (entry.1 ≠ kind) } := by
  have visited : keyWhile start.jobs taken.queue.jobs todo kind = none := by
    rw [keyWhile_visited leads fresh, emptied]
  have unchanged {other : RowKind} (different : other ≠ kind) :
      keyWhile start.jobs taken.queue.jobs (key :: todo) other =
        keyWhile start.jobs taken.queue.jobs todo other := keyWhile_cons_of_ne leads different
  have noMember {id : Nat} {job : TransferJob} (found : taken.queue.jobs.get? id = some job) :
      kindOf job ≠ kind := fun inRow =>
    leader_eq_none_iff.mp emptied id (mem_members_iff.mpr ⟨job, found, inRow⟩)
  have stays {other : Nat} {counters : RowCounters}
      (row : (removal.queue.rows.erase key).get? other = some counters) :
      other ≠ key ∧ removal.queue.rows.get? other = some counters ∧ counters.kind ≠ kind := by
    rw [OrderedMap.get?_erase] at row
    split_ifs at row with same
    refine ⟨same, row, ?_⟩
    rintro rfl
    have keyed := closing.keyed other counters row
    rw [keyWhile_cons_self leads, Option.some.injEq] at keyed
    exact same keyed.symm
  constructor
  case jobs_eq => exact closing.jobs_eq
  case sets =>
    exact ⟨closing.sets.running_eq, closing.sets.queued_eq, closing.sets.queuedBySession_eq,
      closing.sets.pending_eq⟩
  case rowOf_eq =>
    intro id
    refine (closing.rowOf_eq id).trans ?_
    cases found : taken.queue.jobs.get? id with
    | none => rfl
    | some job => exact unchanged (noMember found)
  case batchRow_eq =>
    intro batch
    refine (setBatchRow_apply _ _ _ _).trans ?_
    split_ifs with same
    · rw [← same, visited]
    · rw [closing.batchRow_eq, unchanged fun equal => same equal.symm]
  case present =>
    intro other otherKey keyed
    have different : other ≠ kind := by
      rintro rfl
      rw [visited] at keyed
      cases keyed
    rw [← unchanged different] at keyed
    obtain ⟨counters, row⟩ := closing.present other otherKey keyed
    refine ⟨counters, ?_⟩
    have notKey : otherKey ≠ key := by
      rintro rfl
      exact different (eq_of_keyWhile_eq taking.jobs_sub keyed (keyWhile_cons_self leads))
    simp [pushChange, notKey, row]
  case keyed =>
    intro other counters row
    obtain ⟨_, row, different⟩ := stays row
    rw [← unchanged different]
    exact closing.keyed other counters row
  case waiting =>
    intro other counters row waits
    exact closing.waiting other counters (stays row).2.1 (List.mem_cons_of_mem _ waits)
  case settled =>
    intro other counters row visitedOther
    obtain ⟨notKey, row, _⟩ := stays row
    exact closing.settled other counters row (by simp [notKey, visitedOther])
  case labelled =>
    intro labelled other counters first row found
    exact closing.labelled labelled other counters first (stays row).2.1 found
  case nextId_eq => exact closing.nextId_eq
  case nextBatchId_eq => exact closing.nextBatchId_eq
  case batchLabels_eq => exact closing.batchLabels_eq
  case touchedBatches_eq => exact closing.touchedBatches_eq
  case noted_iff =>
    intro other done
    rw [List.mem_filter, closing.noted_iff, decide_eq_true_iff]
    by_cases same : other = kind
    · simp [same, visited]
    · simp [same, unchanged same]
  case noted_nodup => exact closing.noted_nodup.sublist (List.filter_sublist.map _)
  case changes_eq =>
    obtain ⟨dropped, nodup, changes, droppedIff⟩ := closing.changes_eq
    have notDropped : kind ∉ dropped := by
      rw [droppedIff, keyWhile_cons_self leads]
      simp
    refine ⟨dropped ++ [kind], ?_, by simp [pushChange, changes], fun other => ?_⟩
    · rw [List.nodup_append]
      refine ⟨nodup, by simp, fun first firstMem second secondMem equal => ?_⟩
      rw [List.mem_singleton] at secondMem
      exact notDropped (secondMem ▸ equal ▸ firstMem)
    · rw [List.mem_append, List.mem_singleton, droppedIff]
      by_cases same : other = kind
      · simp [same, visited, leads]
      · simp [same, unchanged same]

/-- What a visit leaves of a row that still has jobs. -/
structure Settles (before result : TransferQueue) (jobs : Jobs) (kind : RowKind)
    (key newKey : Nat) (counters : RowCounters) : Prop where
  rest_eq : result =
    { before with rows := result.rows, rowOf := result.rowOf, batchRow := result.batchRow }
  rows_eq : ∀ other, result.rows.get? other =
    if other = newKey then some counters
    else if other = key then none else before.rows.get? other
  rowOf_eq : ∀ id, result.rowOf id =
    if id ∈ (members jobs kind).keys then some newKey else before.rowOf id
  batchRow_eq : ∀ batch, result.batchRow batch =
    if kind = .batch batch then some newKey else before.batchRow batch

/-- Settling a row under the first of the jobs it still has. -/
theorem settle (closing : Closing start taken (key :: todo) removal)
    (taking : Taking start taken) (fresh : key ∉ todo)
    (leaders : ∀ other ∈ todo, ∃ row, leader start.jobs row = some other)
    (leads : leader start.jobs kind = some key) {newKey : Nat}
    (newLeads : leader taken.queue.jobs kind = some newKey) {counters : RowCounters}
    {result : TransferQueue}
    (settles : Settles removal.queue result taken.queue.jobs kind key newKey counters)
    (matched : RowMatches taken.queue.jobs newKey counters)
    (labelled : start.Labelled → ∀ first, start.jobs.get? newKey = some first →
      counters.label = expectedLabel start.batchLabels first) :
    Closing start taken todo { removal with queue := result } := by
  obtain ⟨rest, rows, rowOf, batchRow⟩ := settles
  have visited : keyWhile start.jobs taken.queue.jobs todo kind = some newKey := by
    rw [keyWhile_visited leads fresh, newLeads]
  have unchanged {other : RowKind} (different : other ≠ kind) :
      keyWhile start.jobs taken.queue.jobs (key :: todo) other =
        keyWhile start.jobs taken.queue.jobs todo other := keyWhile_cons_of_ne leads different
  have notWaiting : newKey ∉ todo := by
    intro waits
    obtain ⟨row, rowLeads⟩ := leaders newKey waits
    obtain ⟨job, found, inRow⟩ := kindOf_of_leader rowLeads
    obtain ⟨again, againFound, inKind⟩ := kindOf_of_leader newLeads
    rw [taking.jobs_sub _ _ againFound, Option.some.injEq] at found
    have sameRow : row = kind := by rw [← inRow, ← inKind, found]
    rw [sameRow, leads, Option.some.injEq] at rowLeads
    exact fresh (rowLeads ▸ waits)
  have otherRow {other : Nat} {entry : RowCounters} (different : other ≠ newKey)
      (row : result.rows.get? other = some entry) :
      other ≠ key ∧ removal.queue.rows.get? other = some entry ∧ entry.kind ≠ kind := by
    rw [rows, if_neg different] at row
    split_ifs at row with same
    refine ⟨same, row, ?_⟩
    rintro rfl
    have keyed := closing.keyed other entry row
    rw [keyWhile_cons_self leads, Option.some.injEq] at keyed
    exact same keyed.symm
  constructor
  case jobs_eq => rw [rest]; exact closing.jobs_eq
  case sets =>
    rw [rest]
    exact ⟨closing.sets.running_eq, closing.sets.queued_eq, closing.sets.queuedBySession_eq,
      closing.sets.pending_eq⟩
  case rowOf_eq =>
    intro id
    rw [rowOf, closing.rowOf_eq]
    cases found : taken.queue.jobs.get? id with
    | none =>
      have notMember : id ∉ (members taken.queue.jobs kind).keys := by
        rw [mem_members_iff, found]
        simp
      rw [if_neg notMember, Option.bind_none, Option.bind_none]
    | some job =>
      by_cases inRow : kindOf job = kind
      · rw [if_pos (mem_members_iff.mpr ⟨job, found, inRow⟩), Option.bind_some, inRow, visited]
      · have notMember : id ∉ (members taken.queue.jobs kind).keys := by
          rw [mem_members_iff, found]
          simpa using inRow
        rw [if_neg notMember, Option.bind_some, Option.bind_some, unchanged inRow]
  case batchRow_eq =>
    intro batch
    rw [batchRow, closing.batchRow_eq]
    split_ifs with same
    · rw [← same, visited]
    · rw [unchanged fun equal => same equal.symm]
  case present =>
    intro other otherKey keyed
    by_cases same : other = kind
    · subst same
      rw [visited, Option.some.injEq] at keyed
      exact ⟨counters, by rw [rows, if_pos keyed.symm]⟩
    · have notNew : otherKey ≠ newKey := by
        rintro rfl
        exact same (eq_of_keyWhile_eq taking.jobs_sub keyed visited)
      rw [← unchanged same] at keyed
      have notKey : otherKey ≠ key := by
        rintro rfl
        exact same (eq_of_keyWhile_eq taking.jobs_sub keyed (keyWhile_cons_self leads))
      obtain ⟨entry, row⟩ := closing.present other otherKey keyed
      exact ⟨entry, by rw [rows, if_neg notNew, if_neg notKey, row]⟩
  case keyed =>
    intro other entry row
    by_cases same : other = newKey
    · subst same
      rw [rows, if_pos rfl, Option.some.injEq] at row
      rw [← row, matched.kind_eq newLeads, visited]
    · obtain ⟨_, oldRow, different⟩ := otherRow same row
      rw [← unchanged different]
      exact closing.keyed other entry oldRow
  case waiting =>
    intro other entry row waits
    have notNew : other ≠ newKey := fun equal => notWaiting (equal ▸ waits)
    exact closing.waiting other entry (otherRow notNew row).2.1 (List.mem_cons_of_mem _ waits)
  case settled =>
    intro other entry row visitedOther
    by_cases same : other = newKey
    · subst same
      rw [rows, if_pos rfl, Option.some.injEq] at row
      rwa [← row]
    · obtain ⟨notKey, oldRow, _⟩ := otherRow same row
      exact closing.settled other entry oldRow (by simp [notKey, visitedOther])
  case labelled =>
    intro held other entry first row found
    by_cases same : other = newKey
    · subst same
      rw [rows, if_pos rfl, Option.some.injEq] at row
      rw [← row]
      exact labelled held first found
    · exact closing.labelled held other entry first (otherRow same row).2.1 found
  case nextId_eq => rw [rest]; exact closing.nextId_eq
  case nextBatchId_eq => rw [rest]; exact closing.nextBatchId_eq
  case batchLabels_eq => rw [rest]; exact closing.batchLabels_eq
  case touchedBatches_eq => exact closing.touchedBatches_eq
  case noted_iff =>
    intro other done
    rw [closing.noted_iff]
    by_cases same : other = kind
    · simp [same, visited, keyWhile_cons_self leads]
    · rw [unchanged same]
  case noted_nodup => exact closing.noted_nodup
  case changes_eq =>
    obtain ⟨dropped, nodup, changes, droppedIff⟩ := closing.changes_eq
    refine ⟨dropped, nodup, by rw [rest]; exact changes, fun other => ?_⟩
    rw [droppedIff]
    by_cases same : other = kind
    · simp [same, visited, keyWhile_cons_self leads]
    · rw [unchanged same]

/-- A row that was counted anew matches its jobs once it is put in order. -/
theorem matches_of_takenRow {jobs : Jobs} {before current : RowCounters} {newKey : Nat}
    {first : TransferJob} (takenRow : TakenRow jobs before current)
    (kindEq : before.kind = kind) (leads : leader jobs kind = some newKey)
    (found : jobs.get? newKey = some first)
    (label : String) :
    RowMatches jobs newKey { current with
      order := (members jobs kind).keys
      direction := first.direction
      label := label } := by
  obtain ⟨sameKind, _, _, _, counts, bytesTotal⟩ := takenRow
  subst kindEq
  constructor
  · rwa [sameKind]
  · obtain ⟨queued, running, completed, failed, cancelled, bytes⟩ := counts
    rw [sameKind]
    exact ⟨queued, running, completed, failed, cancelled, bytes⟩
  · rw [sameKind]
  · rw [sameKind, bytesTotal]
  · intro again againFound
    rw [found, Option.some.injEq] at againFound
    rw [againFound]

/-- The label that `rekey_row` gives a row. -/
def rekeyedLabel (labels : Nat → Option String) (counters : RowCounters) (first : TransferJob) :
    String :=
  match counters.kind with
  | .batch batch => if (labels batch).isNone then first.displayName else counters.label
  | _ => counters.label

theorem rekeyRow_settles {queue : TransferQueue} {jobs : Jobs} {current : RowCounters}
    {newKey : Nat} {rest : List Nat} {first : TransferJob} (queueJobs : queue.jobs = jobs)
    (order : (members jobs kind).keys = newKey :: rest) (sameKind : current.kind = kind)
    (found : jobs.get? newKey = some first) :
    Settles queue
      (rekeyRow { queue with rows := queue.rows.insert key { current with order := newKey :: rest } }
        key) jobs kind key newKey
      { current with
        order := (members jobs kind).keys
        direction := first.direction
        label := rekeyedLabel queue.batchLabels current first } := by
  have rekeyed : rekeyRow
      { queue with rows := queue.rows.insert key { current with order := newKey :: rest } } key =
      { queue with
        rows := ((queue.rows.insert key { current with order := newKey :: rest }).erase key).insert
          newKey { current with
            order := newKey :: rest
            direction := first.direction
            label := rekeyedLabel queue.batchLabels current first }
        rowOf := fun id => if id ∈ newKey :: rest then some newKey else queue.rowOf id
        batchRow := setBatchRow queue.batchRow kind (some newKey) } := by
    subst sameKind queueJobs
    simp only [rekeyRow, OrderedMap.get?_insert, if_true, found]
    rfl
  rw [rekeyed, order]
  constructor
  · rfl
  · intro other
    simp only [OrderedMap.get?_insert, OrderedMap.get?_erase]
    split_ifs <;> rfl
  · intro id
    rw [order]
  · exact fun batch => setBatchRow_apply _ _ _ _

/-- Dropping jobs keeps the label of a row right. -/
theorem rekeyedLabel_eq (taking : Taking start taken) (indexed : start.Indexed)
    {before current : RowCounters} {newKey : Nat} {first : TransferJob} {removed : List Nat}
    (beforeRow : start.rows.get? key = some before) (kindEq : before.kind = kind)
    (takenRow : TakenRow taken.queue.jobs before current)
    (leads : leader start.jobs kind = some key)
    (newLeads : leader taken.queue.jobs kind = some newKey)
    (isRemoved : ∀ id, id ∈ removed ↔ start.rowOf id = some key ∧ taken.queue.jobs.get? id = none)
    (gone : key ∈ removed) (found : taken.queue.jobs.get? newKey = some first)
    (labelled : start.Labelled) :
    rekeyedLabel start.batchLabels current first = expectedLabel start.batchLabels first := by
  obtain ⟨again, againFound, inRow⟩ := kindOf_of_leader newLeads
  rw [found, Option.some.injEq] at againFound
  subst againFound
  obtain ⟨old, oldFound, oldRow⟩ := kindOf_of_leader leads
  have oldLabel := labelled key before old beforeRow oldFound
  unfold rekeyedLabel
  rw [takenRow.kind, kindEq, takenRow.label, oldLabel]
  unfold kindOf at inRow oldRow
  unfold expectedLabel
  cases oldBatch : old.batchId with
  | some batch =>
    simp only [oldBatch] at oldRow
    rw [← oldRow] at inRow ⊢
    cases newBatch : first.batchId with
    | none => simp [newBatch] at inRow
    | some again =>
      simp only [newBatch, RowKind.batch.injEq] at inRow
      subst inRow
      cases held : start.batchLabels again <;> simp [held]
  | none =>
    -- A row outside any batch holds one job, which would be the one removed.
    simp only [oldBatch] at oldRow
    rw [← oldRow] at inRow
    have sameId : first.id = old.id := by
      cases newBatch : first.batchId with
      | some batch => simp [newBatch] at inRow
      | none => simpa [newBatch] using inRow
    rw [(indexed.jobs_id _ _ (taking.jobs_sub _ _ found)).1,
      (indexed.jobs_id _ _ oldFound).1] at sameId
    rw [sameId, ((isRemoved key).mp gone).2] at found
    cases found

/-- Visiting one row. -/
theorem closeRow (closing : Closing start taken (key :: todo) removal)
    (taking : Taking start taken) (indexed : start.Indexed) (fresh : key ∉ todo)
    (leaders : ∀ other ∈ todo, ∃ row, leader start.jobs row = some other)
    (leads : leader start.jobs kind = some key) {removed : List Nat}
    (isRemoved : ∀ id, id ∈ removed ↔ start.rowOf id = some key ∧ taken.queue.jobs.get? id = none) :
    Closing start taken todo (removal.closeRow key removed) := by
  obtain ⟨before, current, beforeRow, kindEq, row, takenRow⟩ := closing.head_row indexed leads
  have matched := indexed.rows.recounted key before beforeRow
  have currentKind : current.kind = kind := takenRow.kind.trans kindEq
  have orderLeft : current.order.filter (fun id => decide (id ∉ removed)) =
      (members taken.queue.jobs kind).keys := by
    rw [takenRow.order, matched.order, kindEq]
    exact taking.order_filter indexed leads isRemoved
  cases order : (members taken.queue.jobs kind).keys with
  | nil =>
    have emptied : leader taken.queue.jobs kind = none := by rw [leader, order]; rfl
    have dropped := closing.drop taking fresh leads emptied
    rw [Removal.closeRow]
    simp only [row, orderLeft, order, if_true, currentKind]
    exact dropped
  | cons newKey rest =>
    have newLeads : leader taken.queue.jobs kind = some newKey := by rw [leader, order]; rfl
    obtain ⟨first, found, inRow⟩ := kindOf_of_leader newLeads
    by_cases gone : key ∈ removed
    · have label := rekeyedLabel_eq taking indexed beforeRow kindEq takenRow leads newLeads
        isRemoved gone found
      have settled := closing.settle taking fresh leaders leads newLeads
        (rekeyRow_settles closing.jobs_eq order currentKind found)
        (matches_of_takenRow takenRow kindEq newLeads found _) ?_
      · rw [Removal.closeRow]
        simp only [row, orderLeft, order, reduceCtorEq, if_false, gone, if_true]
        exact settled
      · intro labelled again againFound
        rw [taking.jobs_sub _ _ found, Option.some.injEq] at againFound
        rw [← againFound, closing.batchLabels_eq]
        exact label labelled
    · have kept : newKey = key := by
        have head : leader start.jobs kind = some key := leads
        rw [leader] at head
        have filtered := taking.order_filter indexed leads isRemoved
        cases startOrder : (members start.jobs kind).keys with
        | nil => simp [startOrder] at head
        | cons oldKey others =>
          rw [startOrder, List.head?_cons, Option.some.injEq] at head
          subst head
          rw [startOrder, List.filter_cons_of_pos (by simpa using gone), order] at filtered
          exact (List.cons.inj filtered).1.symm
      subst kept
      have direction : current.direction = first.direction := by
        rw [takenRow.direction, matched.direction first (taking.jobs_sub _ _ found)]
      have settles : Settles removal.queue { removal.queue with
            rows := removal.queue.rows.insert newKey
              { current with order := (members taken.queue.jobs kind).keys } }
          taken.queue.jobs kind newKey newKey
          { current with order := (members taken.queue.jobs kind).keys } := by
        constructor
        · rfl
        · intro other
          simp only [OrderedMap.get?_insert]
          split_ifs <;> rfl
        · intro id
          split_ifs with member
          · obtain ⟨job, jobFound, jobRow⟩ := mem_members_iff.mp member
            rw [closing.rowOf_eq, jobFound, Option.bind_some, jobRow, keyWhile_cons_self leads]
          · rfl
        · intro batch
          split_ifs with same
          · rw [closing.batchRow_eq, ← same, keyWhile_cons_self leads]
          · rfl
      have settled := closing.settle taking fresh leaders leads newLeads settles ?_ ?_
      · rw [Removal.closeRow]
        simp only [row, orderLeft, order, reduceCtorEq, if_false, gone]
        rw [order] at settled
        exact settled
      · have direct := matches_of_takenRow takenRow kindEq newLeads found current.label
        rwa [← direction] at direct
      · intro labelled again againFound
        exact closing.labelled labelled newKey current again row againFound

/-- The second loop visits every row that lost a job. -/
theorem foldl_closeRow (taking : Taking start taken) (indexed : start.Indexed)
    (entries : List (Nat × List Nat)) (sorted : (entries.map Prod.fst).Nodup)
    (noted : ∀ entry ∈ entries, taken.removedByRow.get? entry.1 = some entry.2)
    (closing : Closing start taken (entries.map Prod.fst) removal) :
    Closing start taken []
      (entries.foldl (fun removal entry => removal.closeRow entry.1 entry.2) removal) := by
  have leaderOf {entry : Nat × List Nat}
      (entryNoted : taken.removedByRow.get? entry.1 = some entry.2) :
      ∃ row, leader start.jobs row = some entry.1 := by
    obtain ⟨id, rest, nonempty⟩ := List.exists_cons_of_ne_nil (taking.taken_ne_nil _ _ entryNoted)
    have inRow := ((taking.taken_iff entry.1 id).mp (by simp [entryNoted, nonempty])).1
    rw [indexed.rowOf_eq, recountRowOf, Option.bind_eq_some_iff] at inRow
    obtain ⟨job, _, leads⟩ := inRow
    exact ⟨kindOf job, leads⟩
  induction entries generalizing removal with
  | nil => exact closing
  | cons entry rest ih =>
    rw [List.map_cons, List.nodup_cons] at sorted
    have entryNoted := noted entry (by simp)
    obtain ⟨row, leads⟩ := leaderOf entryNoted
    refine ih sorted.2 (fun other member => noted other (List.mem_cons_of_mem _ member)) ?_
    refine closing.closeRow taking indexed sorted.1 ?_ leads ?_
    · intro other member
      obtain ⟨otherEntry, otherMember, rfl⟩ := List.mem_map.mp member
      exact leaderOf (noted otherEntry (List.mem_cons_of_mem _ otherMember))
    · intro id
      have takenIff := taking.taken_iff entry.1 id
      rwa [entryNoted, Option.getD_some] at takenIff

end Closing

end TransferQueue

end Porthmos
