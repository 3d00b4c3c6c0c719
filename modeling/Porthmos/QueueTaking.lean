import Porthmos.QueueIndexing

/-!
# Taking jobs out of the queue

The first loop of `remove_jobs` takes the jobs out of the map and out of every
count, but leaves the rows under their old keys and with their old orders.
-/

namespace Porthmos

namespace TransferQueue

/-- A row after jobs were taken: counted anew, but still ordered and keyed as
before. -/
structure TakenRow (jobs : Jobs) (before current : RowCounters) : Prop where
  kind : current.kind = before.kind
  label : current.label = before.label
  direction : current.direction = before.direction
  order : current.order = before.order
  counts : Counts jobs before.kind current
  bytesTotal : current.bytesTotal = byteSum jobs before.kind TransferJob.totalBytes

/-- What the first loop of `remove_jobs` maintains. -/
structure Taking (start : TransferQueue) (removal : Removal) : Prop where
  jobs_sub : ∀ id job, removal.queue.jobs.get? id = some job → start.jobs.get? id = some job
  sets : removal.queue.SetsIndexed removal.queue.jobs
  rowOf_eq : ∀ id,
    removal.queue.rowOf id = (removal.queue.jobs.get? id).bind fun _ => start.rowOf id
  rows_some : ∀ key before, start.rows.get? key = some before →
    ∃ current, removal.queue.rows.get? key = some current ∧
      TakenRow removal.queue.jobs before current
  rows_none : ∀ key, start.rows.get? key = none → removal.queue.rows.get? key = none
  nextId_eq : removal.queue.nextId = start.nextId
  nextBatchId_eq : removal.queue.nextBatchId = start.nextBatchId
  batchLabels_eq : removal.queue.batchLabels = start.batchLabels
  batchRow_eq : removal.queue.batchRow = start.batchRow
  changes_eq : removal.queue.changes = start.changes
  taken_iff : ∀ key id, id ∈ (removal.removedByRow.get? key).getD [] ↔
    start.rowOf id = some key ∧ removal.queue.jobs.get? id = none
  taken_ne_nil : ∀ key ids, removal.removedByRow.get? key = some ids → ids ≠ []
  untouched : ∀ key before, start.rows.get? key = some before →
    removal.removedByRow.get? key = none →
      ∀ test, statusCount removal.queue.jobs before.kind test =
        statusCount start.jobs before.kind test
  noted_iff : ∀ kind done, (kind, done) ∈ removal.wasFinished ↔
    ∃ key before, start.rows.get? key = some before ∧ before.kind = kind ∧
      (removal.removedByRow.get? key).isSome = true ∧ done = rowDone start.jobs kind
  noted_nodup : (removal.wasFinished.map Prod.fst).Nodup

theorem mem_noteFinished_iff {noted : List (RowKind × Bool)} {kind other : RowKind}
    {done finished : Bool} :
    (other, done) ∈ Removal.noteFinished noted kind finished ↔ (other, done) ∈ noted ∨
        (kind ∉ noted.map Prod.fst ∧ other = kind ∧ done = finished) := by
  unfold Removal.noteFinished
  split_ifs with known
  · simp only [known, not_true_eq_false, false_and, or_false]
  · simp only [known, not_false_iff, true_and, List.mem_append, List.mem_singleton, Prod.mk.injEq]

theorem nodup_noteFinished {noted : List (RowKind × Bool)} (nodup : (noted.map Prod.fst).Nodup)
    (kind : RowKind) (finished : Bool) :
    ((Removal.noteFinished noted kind finished).map Prod.fst).Nodup := by
  unfold Removal.noteFinished
  split_ifs with known
  · exact nodup
  · rw [List.map_append, List.nodup_append]
    refine ⟨nodup, by simp, ?_⟩
    intro first firstMem second secondMem equal
    simp only [List.map_cons, List.map_nil, List.mem_singleton] at secondMem
    exact known (secondMem ▸ equal ▸ firstMem)

theorem taking_start {start : TransferQueue} (indexed : start.Indexed) :
    Taking start (Removal.start start) where
  jobs_sub := fun _ _ found => found
  sets := indexed.sets
  rowOf_eq := by
    intro id
    simp only [Removal.start, indexed.rowOf_eq, recountRowOf]
    cases start.jobs.get? id <;> rfl
  rows_some := by
    intro key before row
    obtain ⟨_, counts, _, bytesTotal, _⟩ := indexed.rows.recounted key before row
    exact ⟨before, row, rfl, rfl, rfl, rfl, counts, bytesTotal⟩
  rows_none := fun _ row => row
  nextId_eq := rfl
  nextBatchId_eq := rfl
  batchLabels_eq := rfl
  batchRow_eq := rfl
  changes_eq := rfl
  taken_iff := by
    intro key id
    simp only [Removal.start, OrderedMap.get?_empty, Option.getD_none, List.not_mem_nil, false_iff,
      not_and, indexed.rowOf_eq, recountRowOf]
    intro inRow gone
    simp [gone] at inRow
  taken_ne_nil := by simp [Removal.start]
  untouched := fun _ _ _ _ _ => rfl
  noted_iff := by simp [Removal.start]
  noted_nodup := by simp [Removal.start]

section TakeJob

variable {start : TransferQueue} {removal : Removal} {id key : Nat} {job : TransferJob}

/-- The queue after one job was taken out of it. -/
def takenQueue (queue : TransferQueue) (id key : Nat) (job : TransferJob) : TransferQueue :=
  { queue.account id (Shape.of job) false with
    rows := (queue.account id (Shape.of job) false).rows.modify key fun counters =>
      { counters with bytesTotal := counters.bytesTotal - job.totalBytes }
    rowOf := Function.update queue.rowOf id none
    jobs := queue.jobs.erase id }

/-- A row after one of its jobs was taken. -/
def takenRow (counters : RowCounters) (job : TransferJob) : RowCounters :=
  { accountRow counters (Shape.of job) false with
    bytesTotal := counters.bytesTotal - job.totalBytes }

theorem takeJob_of_none (absent : removal.queue.jobs.get? id = none) :
    removal.takeJob id = removal := by
  simp [Removal.takeJob, absent]

theorem takeJob_of_some {current : RowCounters} (found : removal.queue.jobs.get? id = some job)
    (inRow : removal.queue.rowOf id = some key)
    (row : removal.queue.rows.get? key = some current) :
    (removal.takeJob id).queue = takenQueue removal.queue id key job ∧
      (removal.takeJob id).removedByRow = removal.removedByRow.insert key
        ((removal.removedByRow.get? key).getD [] ++ [id]) ∧
      (removal.takeJob id).wasFinished =
        Removal.noteFinished removal.wasFinished current.kind current.finished := by
  simp [Removal.takeJob, takenQueue, found, inRow, row]

theorem takenQueue_rows {queue : TransferQueue} (inRow : queue.rowOf id = some key) (other : Nat) :
    (takenQueue queue id key job).rows.get? other =
      if other = key then (queue.rows.get? other).map fun counters => takenRow counters job
      else queue.rows.get? other := by
  simp only [takenQueue, account_rows _ _ _ _ inRow, OrderedMap.get?_modify]
  split_ifs with same
  · subst same
    rw [Option.map_map]
    congr 1
    funext counters
    simp [takenRow]
  · rfl

theorem TakenRow.erase_of_eq {jobs : Jobs} {before current : RowCounters}
    (row : TakenRow jobs before current) (found : jobs.get? id = some job)
    (inRow : kindOf job = before.kind) :
    TakenRow (jobs.erase id) before (takenRow current job) := by
  obtain ⟨kind, label, direction, order, counts, bytesTotal⟩ := row
  have counted := counts.erase found inRow
  have bytes := byteSum_erase found before.kind TransferJob.totalBytes
  rw [if_pos inRow] at bytes
  constructor
  · simp [takenRow, kind]
  · simp [takenRow, label]
  · simp [takenRow, direction]
  · simp [takenRow, order]
  · obtain ⟨queued, running, completed, failed, cancelled, done⟩ := counted
    exact ⟨queued, running, completed, failed, cancelled, done⟩
  · simp only [takenRow]
    omega

theorem statusCount_erase_of_ne {jobs : Jobs} {kind : RowKind} (found : jobs.get? id = some job)
    (otherRow : kindOf job ≠ kind) (test : JobStatus → Bool) :
    statusCount (jobs.erase id) kind test = statusCount jobs kind test := by
  have counted := statusCount_erase found kind test
  simpa [otherRow] using counted

theorem byteSum_erase_of_ne {jobs : Jobs} {kind : RowKind} (found : jobs.get? id = some job)
    (otherRow : kindOf job ≠ kind) (bytes : TransferJob → Nat) :
    byteSum (jobs.erase id) kind bytes = byteSum jobs kind bytes := by
  have counted := byteSum_erase found kind bytes
  simpa [otherRow] using counted

theorem TakenRow.erase_of_ne {jobs : Jobs} {before current : RowCounters}
    (row : TakenRow jobs before current) (found : jobs.get? id = some job)
    (otherRow : kindOf job ≠ before.kind) : TakenRow (jobs.erase id) before current := by
  obtain ⟨kind, label, direction, order, counts, bytesTotal⟩ := row
  refine ⟨kind, label, direction, order, ?_, ?_⟩
  · exact counts.of_ne (statusCount_erase_of_ne found otherRow) (byteSum_erase_of_ne found otherRow)
  · rw [byteSum_erase_of_ne found otherRow, bytesTotal]

namespace Taking

theorem row_of_job (taking : Taking start removal) (indexed : start.Indexed)
    (found : removal.queue.jobs.get? id = some job) :
    ∃ key before current, start.rowOf id = some key ∧ removal.queue.rowOf id = some key ∧
      start.rows.get? key = some before ∧ removal.queue.rows.get? key = some current ∧
      leader start.jobs (kindOf job) = some key ∧ before.kind = kindOf job ∧
      TakenRow removal.queue.jobs before current := by
  obtain ⟨key, before, inRow, row, leads, kind⟩ :=
    indexed.row_of_job (taking.jobs_sub _ _ found)
  obtain ⟨current, currentRow, taken⟩ := taking.rows_some key before row
  refine ⟨key, before, current, inRow, ?_, row, currentRow, leads, kind, taken⟩
  rw [taking.rowOf_eq, found]
  exact inRow

/-- A row that has not been noted is finished now exactly if it was at the
start. -/
theorem finished_of_unnoted (taking : Taking start removal) {before current : RowCounters}
    (found : removal.queue.jobs.get? id = some job) (row : start.rows.get? key = some before)
    (kind : before.kind = kindOf job) (taken : TakenRow removal.queue.jobs before current)
    (unnoted : before.kind ∉ removal.wasFinished.map Prod.fst) :
    current.finished = rowDone start.jobs before.kind := by
  rw [taken.counts.finished_eq found kind.symm]
  have notTaken : removal.removedByRow.get? key = none := by
    cases noted : removal.removedByRow.get? key with
    | none => rfl
    | some ids =>
      refine absurd ?_ unnoted
      rw [List.mem_map]
      exact ⟨(before.kind, rowDone start.jobs before.kind),
        (taking.noted_iff _ _).mpr ⟨key, before, row, rfl, by simp [noted], rfl⟩, rfl⟩
  have same := taking.untouched key before row notTaken
  rw [rowDone, rowDone, same, same]

theorem takeJob_noted_iff (taking : Taking start removal) {before current : RowCounters}
    (found : removal.queue.jobs.get? id = some job) (row : start.rows.get? key = some before)
    (kind : before.kind = kindOf job) (taken : TakenRow removal.queue.jobs before current)
    (noted : RowKind) (done : Bool) :
    (noted, done) ∈ Removal.noteFinished removal.wasFinished current.kind current.finished ↔
      ∃ other otherRow, start.rows.get? other = some otherRow ∧ otherRow.kind = noted ∧
        ((removal.removedByRow.insert key
          ((removal.removedByRow.get? key).getD [] ++ [id])).get? other).isSome = true ∧
        done = rowDone start.jobs noted := by
  rw [mem_noteFinished_iff, taken.kind]
  constructor
  · rintro (already | ⟨unnoted, rfl, rfl⟩)
    · obtain ⟨other, otherRow, otherFound, otherKind, touched, same⟩ :=
        (taking.noted_iff _ _).mp already
      refine ⟨other, otherRow, otherFound, otherKind, ?_, same⟩
      rw [OrderedMap.get?_insert]
      split_ifs <;> simp [touched]
    · exact ⟨key, before, row, rfl, by simp, taking.finished_of_unnoted found row kind taken unnoted⟩
  · rintro ⟨other, otherRow, otherFound, rfl, touched, rfl⟩
    by_cases same : other = key
    · subst same
      rw [row, Option.some.injEq] at otherFound
      subst otherFound
      by_cases unnoted : before.kind ∈ removal.wasFinished.map Prod.fst
      · obtain ⟨⟨kindAgain, doneAgain⟩, member, rfl⟩ := List.mem_map.mp unnoted
        obtain ⟨_, _, _, _, _, same⟩ := (taking.noted_iff _ _).mp member
        exact Or.inl (same ▸ member)
      · exact Or.inr ⟨unnoted, rfl, (taking.finished_of_unnoted found row kind taken unnoted).symm⟩
    · rw [OrderedMap.get?_insert, if_neg same] at touched
      exact Or.inl ((taking.noted_iff _ _).mpr ⟨other, otherRow, otherFound, rfl, touched, rfl⟩)

/-- Taking one job out. -/
theorem takeJob (taking : Taking start removal) (indexed : start.Indexed) (id : Nat) :
    Taking start (removal.takeJob id) := by
  cases found : removal.queue.jobs.get? id with
  | none => rwa [takeJob_of_none found]
  | some job =>
    obtain ⟨key, before, current, startRow, inRow, row, currentRow, leads, kind, taken⟩ :=
      taking.row_of_job indexed found
    obtain ⟨queue, removedByRow, wasFinished⟩ := takeJob_of_some found inRow currentRow
    have jobs : (removal.takeJob id).queue.jobs = removal.queue.jobs.erase id := by
      rw [queue, takenQueue]
    have rows : (removal.takeJob id).queue.rows =
      (takenQueue removal.queue id key job).rows := by rw [queue]
    have rowOf : (removal.takeJob id).queue.rowOf =
      Function.update removal.queue.rowOf id none := by rw [queue, takenQueue]
    constructor
    case jobs_sub =>
      intro other entry entryFound
      rw [jobs, OrderedMap.get?_erase] at entryFound
      split_ifs at entryFound with same
      exact taking.jobs_sub _ _ entryFound
    case sets =>
      have sets := taking.sets.account_erase found inRow
      rw [queue]
      exact ⟨sets.running_eq, sets.queued_eq, sets.queuedBySession_eq, sets.pending_eq⟩
    case rowOf_eq =>
      intro other
      rw [jobs, rowOf, OrderedMap.get?_erase]
      by_cases same : other = id
      · simp [same]
      · rw [Function.update_of_ne same, if_neg same, taking.rowOf_eq]
    case rows_some =>
      intro other otherRow otherFound
      obtain ⟨entry, entryRow, entryTaken⟩ := taking.rows_some other otherRow otherFound
      rw [jobs, rows, takenQueue_rows inRow]
      by_cases same : other = key
      · subst same
        rw [row, Option.some.injEq] at otherFound
        subst otherFound
        exact ⟨takenRow entry job, by simp [entryRow], entryTaken.erase_of_eq found kind.symm⟩
      · refine ⟨entry, by rw [if_neg same, entryRow], entryTaken.erase_of_ne found ?_⟩
        exact indexed.kind_ne_of_key_ne leads otherFound same
    case rows_none =>
      intro other absent
      rw [rows, takenQueue_rows inRow, taking.rows_none other absent]
      simp
    case nextId_eq => rw [queue, ← taking.nextId_eq]; simp [takenQueue]
    case nextBatchId_eq => rw [queue, ← taking.nextBatchId_eq]; simp [takenQueue]
    case batchLabels_eq => rw [queue, ← taking.batchLabels_eq]; simp [takenQueue]
    case batchRow_eq => rw [queue, ← taking.batchRow_eq]; simp [takenQueue]
    case changes_eq => rw [queue, ← taking.changes_eq]; simp [takenQueue]
    case taken_iff =>
      intro other otherId
      rw [jobs, removedByRow, OrderedMap.get?_insert, OrderedMap.get?_erase]
      have before := taking.taken_iff other otherId
      by_cases sameKey : other = key
      · subst sameKey
        simp only [if_true, Option.getD_some, List.mem_append, List.mem_singleton, before]
        by_cases sameId : otherId = id
        · simp [sameId, startRow]
        · simp [sameId]
      · rw [if_neg sameKey, before]
        by_cases sameId : otherId = id
        · simp [sameId, startRow, Ne.symm sameKey]
        · simp [sameId]
    case taken_ne_nil =>
      intro other ids idsFound
      rw [removedByRow, OrderedMap.get?_insert] at idsFound
      split_ifs at idsFound with same
      · cases idsFound
        simp
      · exact taking.taken_ne_nil other ids idsFound
    case untouched =>
      intro other otherRow otherFound absent test
      rw [removedByRow, OrderedMap.get?_insert] at absent
      split_ifs at absent with same
      rw [jobs, statusCount_erase_of_ne found]
      · exact taking.untouched other otherRow otherFound absent test
      · exact indexed.kind_ne_of_key_ne leads otherFound same
    case noted_iff =>
      intro noted done
      rw [removedByRow, wasFinished]
      exact taking.takeJob_noted_iff found row kind taken noted done
    case noted_nodup =>
      rw [wasFinished]
      exact nodup_noteFinished taking.noted_nodup _ _

/-- The first loop takes exactly the given jobs. -/
theorem foldl_takeJob (indexed : start.Indexed) (ids : List Nat) {removal : Removal}
    (taking : Taking start removal) :
    Taking start (ids.foldl Removal.takeJob removal) ∧
      ∀ id, (ids.foldl Removal.takeJob removal).queue.jobs.get? id =
        if id ∈ ids then none else removal.queue.jobs.get? id := by
  induction ids generalizing removal with
  | nil => exact ⟨taking, fun _ => rfl⟩
  | cons first rest ih =>
    have jobs (id : Nat) : (removal.takeJob first).queue.jobs.get? id =
        if id = first then none else removal.queue.jobs.get? id := by
      cases found : removal.queue.jobs.get? first with
      | none =>
        rw [takeJob_of_none found]
        split_ifs with same
        · rw [same, found]
        · rfl
      | some job =>
        obtain ⟨key, _, _, _, inRow, _, currentRow, _⟩ := taking.row_of_job indexed found
        rw [(takeJob_of_some found inRow currentRow).1, takenQueue, OrderedMap.get?_erase]
    obtain ⟨after, afterJobs⟩ := ih (taking.takeJob indexed first)
    refine ⟨after, fun id => ?_⟩
    rw [List.foldl_cons, afterJobs, jobs]
    by_cases same : id = first <;> simp [same]

end Taking

end TakeJob

end TransferQueue

end Porthmos
