import Porthmos.HistoryCounts

/-!
# Every completed file is counted once

What is completed in a run is counted by exactly one entry once the engine has stopped,
and each row that is interrupted then gets one entry more.
-/

namespace Porthmos

open TransferQueue

namespace Engine

variable {engine : Engine} {label : Label} {before after : Engine} {id total : Nat}

/-! ### New entries -/

/-- New entries are about jobs of the queue. -/
def Entered (jobs : Jobs) (history result : HistoryLog) : Prop :=
  ∃ entries, result.stored = history.stored ++ entries ∧
    ∀ entry ∈ entries, ∀ job ∈ entry.2, jobs.get? job.id = some job

theorem Entered.refl (jobs : Jobs) (history : HistoryLog) : Entered jobs history history :=
  ⟨[], (List.append_nil _).symm, nofun⟩

theorem Entered.trans {jobs : Jobs} {first second third : HistoryLog}
    (earlier : Entered jobs first second) (later : Entered jobs second third) :
    Entered jobs first third := by
  obtain ⟨entries, isEarlier, earlierJobs⟩ := earlier
  obtain ⟨others, isLater, laterJobs⟩ := later
  refine ⟨entries ++ others, by rw [isLater, isEarlier, List.append_assoc], fun entry member => ?_⟩
  exact (List.mem_append.mp member).elim (earlierJobs entry) (laterJobs entry)

theorem processRow_entered (indexed : engine.transfers.Indexed) (now : Nat) (kind : RowKind) :
    Entered engine.transfers.jobs engine.history (engine.processRow now kind).history := by
  unfold processRow
  split
  · exact .refl _ _
  · split_ifs
    · exact .refl _ _
    · refine ⟨[_], rfl, fun entry member job inEntry => ?_⟩
      rw [List.mem_singleton.mp member] at inEntry
      exact mem_uncountedJobs indexed inEntry
    · exact .refl _ _

theorem processRowChanges_entered (indexed : engine.transfers.Indexed) (now : Nat) :
    Entered engine.transfers.jobs engine.history (engine.processRowChanges now).history := by
  have rows (kinds : List RowKind) (start : Engine) (startIndexed : start.transfers.Indexed) :
      Entered start.transfers.jobs start.history
        (kinds.foldl (Engine.processRow now) start).history := by
    induction kinds generalizing start with
    | nil => exact .refl _ _
    | cons kind rest ih =>
      have same := processRow_transfers now start kind
      have later := ih (start.processRow now kind) (same.symm ▸ startIndexed)
      rw [same] at later
      exact (processRow_entered startIndexed now kind).trans later
  have taken : Indexed engine.transfers.takeChanges.1 :=
    indexed.of_fields rfl rfl rfl rfl rfl rfl rfl rfl rfl
  exact rows _ { engine with transfers := engine.transfers.takeChanges.1 } taken

/-! ### Completed jobs -/

/-- The job was completed; if it is gone, an entry has counted it. -/
structure Done (id total : Nat) (engine : Engine) : Prop where
  known : id < engine.transfers.nextId
  completed : ∀ job, engine.transfers.jobs.get? id = some job →
    job.status = .completed ∧ job.totalBytes = total
  absent : engine.transfers.jobs.get? id = none →
    engine.history.stored.countP (speaksFor id) = 1
  totals : ∀ entry ∈ engine.history.stored, ∀ job ∈ entry.2, job.id = id → job.totalBytes = total

theorem Done.entered (done : Done id total engine) {history : HistoryLog}
    (entered : Entered engine.transfers.jobs engine.history history) :
    (engine.transfers.jobs.get? id = none → history.stored.countP (speaksFor id) = 1) ∧
      ∀ entry ∈ history.stored, ∀ job ∈ entry.2, job.id = id → job.totalBytes = total := by
  obtain ⟨entries, stored, ofQueue⟩ := entered
  constructor
  · intro absent
    rw [stored, List.countP_append, done.absent absent, Nat.add_eq_left, List.countP_eq_zero]
    intro entry member speaks
    obtain ⟨job, inEntry, rfl, _⟩ := speaksFor_eq_true.mp speaks
    rw [ofQueue entry member job inEntry] at absent
    cases absent
  · intro entry member job inEntry same
    rw [stored, List.mem_append] at member
    rcases member with old | new
    · exact done.totals entry old job inEntry same
    · exact (done.completed job (same ▸ ofQueue entry new job inEntry)).2

theorem Done.change (done : Done id total engine) {queue : TransferQueue} {other : Nat}
    {job changed : TransferJob} (change : JobChanged engine.transfers queue other job changed)
    (stays : job.status = .completed → changed.status = .completed) :
    Done id total { engine with transfers := queue } := by
  refine ⟨change.nextId_eq.symm ▸ done.known, fun last isLast => ?_, fun absent => ?_, done.totals⟩
  · change queue.jobs.get? id = some last at isLast
    rw [change.jobs_eq] at isLast
    rcases OrderedMap.get?_insert_cases isLast with ⟨rfl, rfl⟩ | ⟨_, earlier⟩
    · obtain ⟨completed, sameTotal⟩ := done.completed job change.found
      exact ⟨stays completed, change.kept.totalBytes.trans sameTotal⟩
    · exact done.completed last earlier
  · change queue.jobs.get? id = none at absent
    rw [change.jobs_eq, OrderedMap.get?_insert] at absent
    split_ifs at absent
    exact done.absent absent

theorem Done.kept (done : Done id total engine) {queue : TransferQueue}
    (kept : JobsKept engine.transfers queue) : Done id total { engine with transfers := queue } :=
  ⟨kept.nextId_eq.symm ▸ done.known, fun job found => done.completed job (kept.jobs_eq ▸ found),
    fun absent => done.absent (kept.jobs_eq ▸ absent), done.totals⟩

/-- What is completed stays so, and is counted before it goes. -/
theorem Done.move (done : Done id total before) (counts : before.Counts (Changed before.transfers))
    (sound : before.Sound) (move : Move label before after) : Done id total after := by
  have logged {history : HistoryLog} (entered : Entered before.transfers.jobs before.history history) :
      Done id total { before with history := history } :=
    ⟨done.known, done.completed, (done.entered entered).1, (done.entered entered).2⟩
  cases move with
  | plans scan work scanning kind isNew kept =>
    have still := done.kept kept
    exact ⟨still.known, still.completed, still.absent, still.totals⟩
  | begins waiting live room change =>
    have still := done.change change (by simp [waiting])
    exact ⟨still.known, still.completed, still.absent, still.totals⟩
  | abandons waiting ended change => exact done.change change (by simp [waiting])
  | retries interrupted live change =>
    refine done.change change fun completed => ?_
    rw [completed] at interrupted
    cases interrupted
  | advances transferred change => exact done.change change fun completed => completed
  | enqueues inBatch waiting untried live settled sameSession entered =>
    have isOld : id ≠ before.transfers.nextId := done.known.ne
    refine ⟨entered.nextId_eq.symm ▸ Nat.lt_succ_of_lt done.known, fun job found => ?_,
      fun absent => ?_, done.totals⟩
    · dsimp only at found
      rw [entered.jobs_eq, OrderedMap.get?_insert, if_neg isOld] at found
      exact done.completed job found
    · dsimp only at absent
      rw [entered.jobs_eq, OrderedMap.get?_insert, if_neg isOld] at absent
      exact done.absent absent
  | @removes _ _ ids finished reported removed =>
    refine ⟨removed.nextId_eq.symm ▸ done.known, fun job found => ?_, fun absent => ?_, done.totals⟩
    · dsimp only at found
      rw [removed.jobs_eq] at found
      split_ifs at found
      exact done.completed job found
    · dsimp only at absent
      cases found : before.transfers.jobs.get? id with
      | none => exact done.absent found
      | some job =>
        -- The row that is cleared has finished, so that it is recorded and its jobs counted.
        rw [removed.jobs_eq, found] at absent
        split_ifs at absent with isRemoved
        have unchanged : ¬ Changed before.transfers (kindOf job) := by
          rintro ⟨change, member, _⟩
          rw [reported] at member
          exact absurd member List.not_mem_nil
        have recorded := (counts.recorded_iff _ unchanged).mpr (finished id isRemoved job found)
        exact (counts.counted id job found (counts.recorded_counted id job found
          (done.completed job found).1 recorded)).2
  | books kept next => exact done.kept kept
  | finishes front runs ended reported change =>
    have still := done.change change (by simp [runs])
    exact ⟨still.known, still.completed, still.absent, still.totals⟩
  | fails front isOwner runs change =>
    have still := done.change change (by simp [runs])
    exact ⟨still.known, still.completed, still.absent, still.totals⟩
  | records now =>
    have entered := processRowChanges_entered sound.indexed now
    obtain ⟨history, same⟩ := processRowChanges_eq now before
    rw [same] at entered ⊢
    have still := logged entered
    exact ⟨still.known, still.completed, still.absent, still.totals⟩
  | logs recorded counted stored =>
    obtain ⟨entries, isStored, empty⟩ := stored
    refine logged ⟨entries, isStored, fun entry member job inEntry => ?_⟩
    rw [(empty entry member).2.2] at inEntry
    exact absurd inEntry List.not_mem_nil
  | settles | drops | connects | disconnects | marks | reviews | closesReviews | opensPlan
  | closesPlans | works | tells | ends | removesPart =>
    exact ⟨done.known, done.completed, done.absent, done.totals⟩

/-! ### Runs -/

theorem counts_new (localFs : FsTraits) (maxParallel : Nat) (onConflict : ConflictPolicy)
    (store : List HistoryEntry) :
    (Engine.new localFs maxParallel onConflict store).Counts
      (Changed (Engine.new localFs maxParallel onConflict store).transfers) where
  recorded_iff := by
    intro kind _
    refine ⟨nofun, fun finished => ?_⟩
    obtain ⟨id, job, found, _⟩ := finished.some_job
    cases found
  recorded_counted := by intro id job found; cases found
  counted := by intro id job found; cases found
  uncounted := by intro id job found; cases found
  counted_lt := by intro kind id isCounted; cases isCounted
  stored_lt := by intro entry member; cases member
  totals := by intro entry member; cases member
  addsUp := by intro entry member; cases member

theorem Steady.counts (steady : engine.Steady) (counts : engine.Counts (Changed engine.transfers))
    (steps : List EngineStep) :
    (engine.after steps).Counts (Changed (engine.after steps).transfers) :=
  steady.invariant (fun engine => engine.Counts (Changed engine.transfers)) counts steps
    fun _ _ _ _ sound move still => still.move sound move

theorem Steady.done (steady : engine.Steady) (counts : engine.Counts (Changed engine.transfers))
    {job : TransferJob} (found : engine.transfers.jobs.get? id = some job)
    (completed : job.status = .completed) (steps : List EngineStep) :
    Done id job.totalBytes (engine.after steps) := by
  refine (steady.invariant (fun engine => engine.Counts (Changed engine.transfers) ∧
    Done id job.totalBytes engine) ⟨counts, ?_⟩ steps
      fun _ _ _ _ sound move ⟨counts, done⟩ => ⟨counts.move sound move, done.move counts sound move⟩).2
  refine ⟨(steady.sound.indexed.jobs_id id job found).2, fun last isLast => ?_, fun absent => ?_, ?_⟩
  · cases found.symm.trans isLast
    exact ⟨completed, rfl⟩
  · rw [found] at absent
    cases absent
  · rintro entry member counted inEntry rfl
    exact (counts.totals entry member counted inEntry job found).symm

/-! ### Interrupted rows -/

theorem rowList_nodup {queue : TransferQueue} (indexed : queue.Indexed) :
    (queue.rowList.map QueueRow.kind).Nodup := by
  refine List.Nodup.of_map (leader queue.jobs) ?_
  have leaders : (queue.rowList.map QueueRow.kind).map (leader queue.jobs) =
      queue.rows.keys.map some := by
    unfold rowList OrderedMap.values OrderedMap.keys
    simp only [List.map_map]
    refine List.map_congr_left fun entry member => ?_
    exact (indexed.rows.recounted entry.1 entry.2 (OrderedMap.mem_entries_iff.mp member)).leads
  rw [leaders]
  exact queue.rows.nodup_keys.map (Option.some_injective _)

/-- Each scan and each review has its own kind as well. -/
theorem snapshotRows_nodup (sound : engine.Sound) :
    (engine.snapshotRows.map QueueRow.kind).Nodup := by
  have batches := sound.batches
  have scanKinds : engine.scans.map QueueRow.kind = (engine.planning.map PlanningScan.batchId ++
        engine.reviews.map ConflictReview.batchId).map RowKind.scan := by
    unfold scans
    simp only [List.map_append, List.map_map]
    rfl
  have planned : (engine.planning.map PlanningScan.batchId).Nodup := by
    rw [List.nodup_iff_count_le_one]
    intro batchId
    rw [List.count, List.countP_map]
    exact (List.countP_congr fun scan _ => by simp).le.trans (sound.owned.scans_le batchId)
  have scansNodup : (engine.scans.map QueueRow.kind).Nodup := by
    rw [scanKinds]
    refine List.Nodup.map (fun _ _ => RowKind.scan.inj) (List.nodup_append.mpr
      ⟨planned, batches.reviews_nodup, ?_⟩)
    intro first isFirst second isSecond
    obtain ⟨scan, isScan, rfl⟩ := List.mem_map.mp isFirst
    obtain ⟨review, isReview, rfl⟩ := List.mem_map.mp isSecond
    exact (batches.planned_reviews scan isScan review isReview).symm
  unfold snapshotRows
  rw [List.map_append]
  refine List.nodup_append.mpr ⟨rowList_nodup sound.indexed, scansNodup, ?_⟩
  intro first isFirst second isSecond
  obtain ⟨row, isRow, rfl⟩ := List.mem_map.mp isFirst
  rw [scanKinds] at isSecond
  obtain ⟨batchId, _, rfl⟩ := List.mem_map.mp isSecond
  -- The row of a job is no scan.
  intro same
  have isSome := sound.indexed.row_eq_some_iff.mpr ⟨isRow, same⟩
  cases isSome

theorem kindOf_ne_scan (job : TransferJob) (batchId : Nat) : kindOf job ≠ .scan batchId := by
  unfold kindOf
  cases job.batchId <;> exact nofun

/-- What is interrupted has no entry yet. -/
theorem not_recorded_of_interrupted (sound : engine.Sound)
    (counts : engine.Counts (Changed engine.transfers)) (reported : engine.transfers.changes = [])
    {row : QueueRow} (member : row ∈ engine.interruptedRows) :
    engine.history.recorded row.kind = false := by
  unfold interruptedRows at member
  obtain ⟨listed, unfinished⟩ := List.mem_filter.mp member
  rw [Bool.and_eq_true, Bool.not_eq_true'] at unfinished
  rw [← Bool.not_eq_true]
  intro recorded
  have unchanged : ¬ Changed engine.transfers row.kind := by
    rintro ⟨change, isChange, _⟩
    rw [reported] at isChange
    exact absurd isChange List.not_mem_nil
  have finished := (counts.recorded_iff _ unchanged).mp recorded
  rcases List.mem_append.mp listed with isRow | isScan
  · rw [(sound.indexed.isFinished_iff isRow).mpr finished] at unfinished
    exact absurd unfinished.1 nofun
  · obtain ⟨id, job, _, inRow⟩ := finished.some_job
    rcases List.mem_append.mp isScan with planned | reviewed
    · obtain ⟨scan, _, rfl⟩ := List.mem_map.mp planned
      exact kindOf_ne_scan job _ inRow
    · obtain ⟨review, _, rfl⟩ := List.mem_map.mp reviewed
      exact kindOf_ne_scan job _ inRow

/-- The entry of a row that is interrupted. -/
def interruptedEntry (engine : Engine) (now : Nat) (row : QueueRow) :
    HistoryEntry × List TransferJob :=
  (engine.entryForRow now row, engine.uncountedJobs row.kind)

theorem setHistory_setHistory (engine : Engine) (first second : HistoryLog) :
    (engine.setHistory first).setHistory second = engine.setHistory second := rfl

theorem interruptedEntry_setHistory (now : Nat) {history : HistoryLog}
    (counted : history.counted = engine.history.counted)
    (names : history.sessionNames = engine.history.sessionNames) :
    (engine.setHistory history).interruptedEntry now = engine.interruptedEntry now := by
  have sameName : (engine.setHistory history).sessionName = engine.sessionName := by
    funext session
    unfold sessionName setHistory
    dsimp only
    rw [names]
  have sameJobs (kind : RowKind) :
      (engine.setHistory history).uncountedJobs kind = engine.uncountedJobs kind := by
    unfold uncountedJobs HistoryLog.hasCounted setHistory
    dsimp only
    rw [counted]
  funext row
  unfold interruptedEntry entryForRow
  rw [sameName, sameJobs]
  rfl

/-- Every row of the list gets its entry, and no row gets another. -/
theorem foldl_recordRow (engine : Engine) (now : Nat) (rows : List QueueRow)
    (distinct : (rows.map QueueRow.kind).Nodup)
    (fresh : ∀ row ∈ rows, engine.history.recorded row.kind = false) :
    ∃ history, rows.foldl (recordRow now) engine = engine.setHistory history ∧
      history.stored = engine.history.stored ++ rows.map (engine.interruptedEntry now) ∧
      ∀ row ∈ rows, history.recorded row.kind = true := by
  have keeps (rows : List QueueRow) (engine : Engine) (kind : RowKind)
      (recorded : engine.history.recorded kind = true) :
      (rows.foldl (recordRow now) engine).history.recorded kind = true := by
    induction rows generalizing engine with
    | nil => exact recorded
    | cons row rest ih =>
      refine ih _ ?_
      unfold recordRow
      split_ifs
      · exact recorded
      · change Function.update engine.history.recorded row.kind true kind = true
        rw [Function.update_apply]
        split_ifs
        · rfl
        · exact recorded
  induction rows generalizing engine with
  | nil => exact ⟨engine.history, rfl, (List.append_nil _).symm, nofun⟩
  | cons row rest ih =>
    rw [List.map_cons, List.nodup_cons] at distinct
    have isFresh := fresh row List.mem_cons_self
    have first : recordRow now engine row = engine.setHistory ((engine.history.record row.kind).storeEntry
        (engine.entryForRow now row) (engine.uncountedJobs row.kind)) := by
      unfold recordRow
      rw [if_neg (by simp [isFresh])]
    have restFresh : ∀ other ∈ rest, (engine.setHistory ((engine.history.record
        row.kind).storeEntry (engine.entryForRow now row)
          (engine.uncountedJobs row.kind))).history.recorded other.kind = false := by
      intro other member
      refine (Function.update_of_ne ?_ _ _).trans (fresh other (List.mem_cons_of_mem _ member))
      exact fun same => distinct.1 (same ▸ List.mem_map_of_mem member)
    obtain ⟨history, same, stored, recorded⟩ := ih _ distinct.2 restFresh
    rw [List.foldl_cons, first]
    refine ⟨history, same.trans (setHistory_setHistory _ _ _), ?_, fun other member => ?_⟩
    · rw [stored, List.map_cons, interruptedEntry_setHistory]
      · exact List.append_assoc _ [_] _
      · dsimp only [HistoryLog.storeEntry, HistoryLog.record]
      · dsimp only [HistoryLog.storeEntry, HistoryLog.record]
    · rcases List.mem_cons.mp member with rfl | isLater
      · have still := keeps rest (engine.setHistory ((engine.history.record other.kind).storeEntry
          (engine.entryForRow now other) (engine.uncountedJobs other.kind))) other.kind
          (Function.update_self _ _ _)
        rw [same] at still
        exact still
      · exact recorded other isLater

/-! ### The end -/

theorem processRowChanges_of_nil (now : Nat) (reported : engine.transfers.changes = []) :
    engine.processRowChanges now = engine := by
  unfold processRowChanges takeChanges
  rw [reported]
  have same : ({ engine.transfers with changes := [] } : TransferQueue) = engine.transfers :=
    reported ▸ rfl
  rw [same]
  rfl

/-- Between steps `record_interrupted` gives each interrupted row an entry, and does so once. -/
theorem recordInterrupted_stored (sound : engine.Sound)
    (counts : engine.Counts (Changed engine.transfers)) (reported : engine.transfers.changes = [])
    (now again : Nat) :
    (engine.recordInterrupted now).history.stored =
        engine.history.stored ++ engine.interruptedRows.map (engine.interruptedEntry now) ∧
      (engine.recordInterrupted now).recordInterrupted again = engine.recordInterrupted now := by
  have distinct : (engine.interruptedRows.map QueueRow.kind).Nodup :=
    (snapshotRows_nodup sound).sublist (List.filter_sublist.map _)
  obtain ⟨history, same, stored, recorded⟩ := foldl_recordRow engine now engine.interruptedRows
    distinct fun row member => not_recorded_of_interrupted sound counts reported member
  have first : engine.recordInterrupted now = engine.setHistory history := by
    unfold recordInterrupted
    rw [processRowChanges_of_nil now reported]
    exact same
  rw [first]
  refine ⟨stored, ?_⟩
  have unchanged : (engine.setHistory history).processRowChanges again = engine.setHistory history :=
    processRowChanges_of_nil again reported
  unfold recordInterrupted
  rw [unchanged]
  -- Every row that is still interrupted is recorded now.
  have skips (rows : List QueueRow) (recorded : ∀ row ∈ rows, history.recorded row.kind = true) :
      rows.foldl (recordRow again) (engine.setHistory history) = engine.setHistory history := by
    induction rows with
    | nil => rfl
    | cons row rest ih =>
      have skip : recordRow again (engine.setHistory history) row = engine.setHistory history :=
        if_pos (recorded row List.mem_cons_self)
      rw [List.foldl_cons, skip]
      exact ih fun other member => recorded other (List.mem_cons_of_mem _ member)
  exact skips engine.interruptedRows recorded

theorem kindOf_mem_interruptedRows (sound : engine.Sound) {job : TransferJob}
    (found : engine.transfers.jobs.get? id = some job)
    (unfinished : ¬ RowFinished engine.transfers.jobs (kindOf job)) :
    kindOf job ∈ engine.interruptedRows.map QueueRow.kind := by
  rcases sound.indexed.row_cases (kindOf job) with ⟨_, noJobs⟩ | ⟨row, isRow, finished⟩
  · exact absurd rfl (noJobs id job found)
  · obtain ⟨listed, sameKind⟩ := sound.indexed.row_eq_some_iff.mp isRow
    refine List.mem_map.mpr ⟨row, List.mem_filter.mpr ⟨List.mem_append_left _ listed, ?_⟩, sameKind⟩
    have notDone : row.isFinished = false := by
      rw [← Bool.not_eq_true, finished]
      exact unfinished
    have notScan : engine.isSyncScan row.kind = false := by
      rw [sameKind]
      unfold kindOf
      cases job.batchId <;> rfl
    rw [notDone, notScan]
    rfl

/-- The entries of the interrupted rows count a completed job if and only if no entry has. -/
theorem countP_interrupted (sound : engine.Sound)
    (counts : engine.Counts (Changed engine.transfers)) (reported : engine.transfers.changes = [])
    (done : Done id total engine) (now : Nat) :
    engine.history.stored.countP (speaksFor id) +
      (engine.interruptedRows.map (engine.interruptedEntry now)).countP (speaksFor id) = 1 := by
  have speaks (row : QueueRow) : speaksFor id (engine.interruptedEntry now row) = true ↔ _ :=
    speaksFor_uncounted sound.indexed _ row.kind
  have none (silent : ∀ row ∈ engine.interruptedRows, ¬ ∃ job,
      engine.transfers.jobs.get? id = some job ∧ kindOf job = row.kind ∧
        engine.history.hasCounted row.kind id = false ∧ job.status = .completed) :
      (engine.interruptedRows.map (engine.interruptedEntry now)).countP (speaksFor id) = 0 := by
    rw [List.countP_eq_zero]
    intro entry member isSpoken
    obtain ⟨row, isRow, rfl⟩ := List.mem_map.mp member
    exact silent row isRow ((speaks row).mp isSpoken)
  cases found : engine.transfers.jobs.get? id with
  | none =>
    rw [done.absent found, none]
    rintro row _ ⟨job, isJob, _⟩
    rw [found] at isJob
    cases isJob
  | some job =>
    have completed := (done.completed job found).1
    cases isCounted : engine.history.hasCounted (kindOf job) id with
    | true =>
      rw [(counts.counted id job found isCounted).2, none]
      rintro row _ ⟨again, isAgain, inRow, notCounted, _⟩
      rw [found] at isAgain
      cases isAgain
      rw [← inRow, isCounted] at notCounted
      cases notCounted
    | false =>
      have unfinished : ¬ RowFinished engine.transfers.jobs (kindOf job) := by
        intro finished
        have unchanged : ¬ Changed engine.transfers (kindOf job) := by
          rintro ⟨change, member, _⟩
          rw [reported] at member
          exact absurd member List.not_mem_nil
        have recorded := (counts.recorded_iff _ unchanged).mpr finished
        rw [counts.recorded_counted id job found completed recorded] at isCounted
        cases isCounted
      have distinct : (engine.interruptedRows.map QueueRow.kind).Nodup :=
        (snapshotRows_nodup sound).sublist (List.filter_sublist.map _)
      -- The job is in one of the interrupted rows.
      have one := List.count_eq_one_of_mem distinct
        (kindOf_mem_interruptedRows sound found unfinished)
      rw [counts.uncounted id job found isCounted, Nat.zero_add, ← one, List.count,
        List.countP_map, List.countP_map]
      refine List.countP_congr fun row _ => ?_
      rw [Function.comp_apply, Function.comp_apply, speaks, beq_iff_eq]
      constructor
      · rintro ⟨again, isAgain, inRow, _⟩
        rw [found] at isAgain
        cases isAgain
        exact inRow.symm
      · intro inRow
        exact ⟨job, found, inRow.symm, inRow ▸ isCounted, completed⟩

/-- How an engine ends: it is shut down and then dropped, or it is just dropped. -/
inductive Ends (engine : Engine) : Engine → Prop
  | dropped (now : Nat) : Ends engine (engine.recordInterrupted now)
  | shutDown (moment : Moment) (now : Nat) :
      Ends engine ((engine.shutdown moment).recordInterrupted now)

theorem cancelAllWork_tasks (engine : Engine) :
    ∃ tasks, engine.cancelAllWork = { engine with tasks := tasks } := by
  have marks (scopes : List Scope) (engine : Engine) :
      ∃ tasks, scopes.foldl cancelScope engine = { engine with tasks := tasks } := by
    induction scopes generalizing engine with
    | nil => exact ⟨engine.tasks, rfl⟩
    | cons first rest ih => exact ih (engine.cancelScope first)
  rw [cancelAllWork_eq]
  exact marks _ engine

theorem Ends.stored {last : Engine} (ends : Ends engine last) (steady : engine.Steady)
    (counts : engine.Counts (Changed engine.transfers)) :
    ∃ now, last.history.stored =
      engine.history.stored ++ engine.interruptedRows.map (engine.interruptedEntry now) := by
  cases ends with
  | dropped now =>
    exact ⟨now, (recordInterrupted_stored steady.sound counts steady.reported now now).1⟩
  | shutDown moment now =>
    obtain ⟨tasks, same⟩ := cancelAllWork_tasks engine
    have sound := (cancelAllWork_moves steady.sound).sound steady.sound
    unfold shutdown
    rw [same] at sound ⊢
    obtain ⟨stored, again⟩ := recordInterrupted_stored sound counts steady.reported moment.now now
    rw [again]
    exact ⟨moment.now, stored⟩

/-- In any run that ends, every entry that was ever stored adds up its jobs, and each job that was
completed at some point is counted by exactly one of them, with its bytes.  At the end each
row that is interrupted, but for the scan of a sync, has got one entry more. -/
theorem countedOnce_of_run (localFs : FsTraits) (maxParallel : Nat) (onConflict : ConflictPolicy)
    (store : List HistoryEntry) (earlier later : List EngineStep) {last : Engine}
    (ends : Ends ((Engine.new localFs maxParallel onConflict store).after (earlier ++ later)) last) :
    (∀ entry ∈ last.history.stored, AddsUp entry) ∧
      (∀ id job, ((Engine.new localFs maxParallel onConflict store).after
          earlier).transfers.jobs.get? id = some job → job.status = .completed →
        last.history.stored.countP (speaksFor id) = 1 ∧
          ∀ entry ∈ last.history.stored, ∀ counted ∈ entry.2, counted.id = id →
            counted.totalBytes = job.totalBytes) ∧
      ∃ now, last.history.stored =
        ((Engine.new localFs maxParallel onConflict store).after (earlier ++ later)).history.stored ++
          ((Engine.new localFs maxParallel onConflict store).after
            (earlier ++ later)).interruptedRows.map
              (interruptedEntry ((Engine.new localFs maxParallel onConflict store).after
                (earlier ++ later)) now) := by
  have start := steady_new localFs maxParallel onConflict store
  have startCounts := counts_new localFs maxParallel onConflict store
  have middle := start.after earlier
  have middleCounts := start.counts startCounts earlier
  rw [after_append] at ends ⊢
  generalize (Engine.new localFs maxParallel onConflict store).after earlier = first at *
  have steady := middle.after later
  have counts := middle.counts middleCounts later
  obtain ⟨now, stored⟩ := ends.stored steady counts
  refine ⟨fun entry member => ?_, fun id job found completed => ?_, now, stored⟩
  · rw [stored, List.mem_append] at member
    rcases member with old | new
    · exact counts.addsUp entry old
    · obtain ⟨row, _, rfl⟩ := List.mem_map.mp new
      exact entryForRow_addsUp steady.sound.indexed now row
  · have done := middle.done middleCounts found completed later
    rw [stored]
    constructor
    · rw [List.countP_append]
      exact countP_interrupted steady.sound counts steady.reported done now
    · intro entry member counted inEntry same
      rcases List.mem_append.mp member with old | new
      · exact done.totals entry old counted inEntry same
      · obtain ⟨row, _, rfl⟩ := List.mem_map.mp new
        have isJob := mem_uncountedJobs steady.sound.indexed inEntry
        exact (done.completed counted (same ▸ isJob)).2

theorem countedOnce_of_run_first :
    (((Engine.new .oneAtATime 2 .ask []).after (connectSteps ++ copySteps ++ [.handle .usual,
      .finish 2 (.executed .completed)] ++ [.handle .usual])).recordInterrupted
        0).history.stored.countP (speaksFor 0) = 1 := by
  have completed : (((Engine.new .oneAtATime 2 .ask []).after (connectSteps ++ copySteps ++
      [.handle .usual, .finish 2 (.executed .completed)] ++
        [.handle .usual])).transfers.jobs.get? 0).any
          (fun job => decide (job.status = .completed)) = true := by decide
  have counted := (countedOnce_of_run .oneAtATime 2 .ask [] (connectSteps ++ copySteps ++
    [.handle .usual, .finish 2 (.executed .completed)] ++ [.handle .usual]) [] (.dropped 0)).2.1
  rw [List.append_nil] at counted
  generalize (Engine.new .oneAtATime 2 .ask []).after (connectSteps ++ copySteps ++
    [.handle .usual, .finish 2 (.executed .completed)] ++ [.handle .usual]) = engine at *
  obtain ⟨job, found, isDone⟩ := any_eq_true completed
  exact (counted 0 job found (of_decide_eq_true isDone)).1

end Engine

end Porthmos
