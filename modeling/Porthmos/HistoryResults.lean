import Porthmos.HistoryRuns

/-!
# What the history says of a row

An entry says how its row went and counts the jobs that no earlier entry has counted.  The two agree
unless the entry is about failures only and an earlier entry has counted the jobs that went well.
-/

namespace Porthmos

open TransferQueue

/-- The result of an entry is what its own counts say. -/
structure AgreesWithCounts (entry : HistoryEntry) : Prop where
  done : entry.result = .done ↔ entry.filesDone = entry.filesTotal
  partlyFailed : ∀ failed, entry.result = .partlyFailed failed ↔
    failed = entry.failedCount ∧ 0 < entry.failedCount ∧ 0 < entry.filesDone
  failed : entry.result = .failed ↔ 0 < entry.failedCount ∧ entry.filesDone = 0
  cancelled : entry.result = .cancelled ↔
    entry.failedCount = 0 ∧ entry.filesDone < entry.filesTotal

/-! ### Counting the jobs of a row -/

namespace TransferQueue

variable {queue : TransferQueue}

theorem Indexed.statusCount_eq (indexed : queue.Indexed) (kind : RowKind)
    (test : JobStatus → Bool) :
    statusCount queue.jobs kind test = (queue.jobsOf kind).countP fun job => test job.status := by
  rw [indexed.jobsOf_eq, List.countP_filter, statusCount, OrderedMap.total_eq_sum_values]
  induction queue.jobs.values with
  | nil => rfl
  | cons job jobs ih =>
    rw [List.map_cons, List.sum_cons, ih, List.countP_cons, Nat.add_comm]
    by_cases inRow : kindOf job = kind <;> cases test job.status <;> simp [inRow]

end TransferQueue

theorem length_eq_statuses (jobs : List TransferJob) :
    jobs.length = jobs.countP (fun job => isQueuedStatus job.status) +
      jobs.countP (fun job => isRunningStatus job.status) +
      jobs.countP (fun job => isCompletedStatus job.status) +
      jobs.countP (fun job => isFailedStatus job.status) +
      jobs.countP (fun job => isCancelledStatus job.status) := by
  induction jobs with
  | nil => rfl
  | cons job jobs ih =>
    simp only [List.countP_cons, List.length_cons, ih]
    cases isStatus : job.status <;>
      simp [isQueuedStatus, isRunningStatus, isCompletedStatus, isFailedStatus,
        isCancelledStatus] <;> omega

theorem state_of_finished {counters : RowCounters} (finished : counters.toRow.isFinished = true) :
    counters.queued = 0 ∧ counters.running = 0 := by
  have state : QueueRow.finishedState counters.state = true := finished
  unfold RowCounters.state at state
  split_ifs at state
  · cases state
  · cases state
  all_goals omega

theorem agrees_iff_counts {entry : HistoryEntry} {counters : RowCounters} {earlier : Nat}
    (finished : counters.toRow.isFinished = true)
    (result : entry.result = historyResult counters.state)
    (done : entry.filesDone + earlier = counters.completed)
    (failed : entry.failedCount = counters.failed)
    (total : entry.filesTotal = entry.filesDone + counters.failed + counters.cancelled) :
    AgreesWithCounts entry ↔ ¬(0 < entry.failedCount ∧ entry.filesDone = 0 ∧ 0 < earlier) := by
  obtain ⟨notQueued, notRunning⟩ := state_of_finished finished
  rw [RowCounters.state, if_neg (by omega), if_neg (by omega), RowCounters.total] at result
  constructor
  · rintro ⟨-, -, isFailed, -⟩ ⟨anyFailed, noneDone, someEarlier⟩
    have told := isFailed.mpr ⟨anyFailed, noneDone⟩
    rw [result, if_neg (by omega), if_neg (by omega), if_pos (by omega)] at told
    cases told
  · intro notMisled
    split_ifs at result <;> constructor <;> simp only [result, historyResult] <;>
      simp <;> omega

namespace Engine

variable {engine : Engine} {kind : RowKind}

/-- An entry for the row would be about failures only, while an earlier one has counted jobs of the
row that went well. -/
def Misjudges (engine : Engine) (kind : RowKind) : Prop :=
  (∃ job ∈ engine.uncountedJobs kind, isFailed job = true) ∧
    (∀ job ∈ engine.uncountedJobs kind, job.status ≠ .completed) ∧
    ∃ job ∈ engine.transfers.jobsOf kind, engine.history.hasCounted kind job.id = true

/-- What has been counted of a row went well. -/
def CountedDone (engine : Engine) (kind : RowKind) : Prop :=
  ∀ job ∈ engine.transfers.jobsOf kind, engine.history.hasCounted kind job.id = true →
    job.status = .completed

theorem Counts.countedDone {pending : RowKind → Prop} (counts : engine.Counts pending)
    (indexed : engine.transfers.Indexed) (kind : RowKind) : engine.CountedDone kind := by
  intro job member isCounted
  obtain ⟨found, rfl⟩ := indexed.mem_jobsOf.mp member
  exact (counts.counted job.id job found isCounted).1

/-- Leaving out what has been counted changes only how many went well. -/
theorem countP_uncountedJobs (done : engine.CountedDone kind) (test : JobStatus → Bool) :
    (engine.uncountedJobs kind).countP (fun job => test job.status) + (if test .completed then
        (engine.transfers.jobsOf kind).countP fun job => engine.history.hasCounted kind job.id
      else 0) = (engine.transfers.jobsOf kind).countP fun job => test job.status := by
  unfold uncountedJobs
  unfold CountedDone at done
  generalize engine.transfers.jobsOf kind = jobs at done ⊢
  induction jobs with
  | nil => simp
  | cons job jobs ih =>
    have rest := ih fun other member => done other (List.mem_cons_of_mem _ member)
    cases isCounted : engine.history.hasCounted kind job.id with
    | true =>
      have status := done job List.mem_cons_self isCounted
      simp only [List.filter_cons, isCounted, List.countP_cons, status, Bool.not_true,
        Bool.false_eq_true, if_false]
      split_ifs at rest ⊢ with counts
      · omega
      · simpa [counts] using rest
    | false =>
      simp only [List.filter_cons, isCounted, List.countP_cons, Bool.not_false, if_true,
        Bool.false_eq_true, if_false, Nat.add_zero]
      omega

theorem misjudges_iff : engine.Misjudges kind ↔
    0 < (engine.uncountedJobs kind).countP (fun job => isFailedStatus job.status) ∧
      (engine.uncountedJobs kind).countP (fun job => isCompletedStatus job.status) = 0 ∧
      0 < (engine.transfers.jobsOf kind).countP fun job =>
        engine.history.hasCounted kind job.id := by
  rw [List.countP_pos_iff, List.countP_eq_zero, List.countP_pos_iff]
  simp only [Misjudges, isFailed, isCompletedStatus, decide_eq_true_eq]

theorem counters_of_row (indexed : engine.transfers.Indexed) {row : QueueRow}
    (isRow : engine.transfers.row kind = some row) :
    ∃ counters, counters.toRow = row ∧ counters.kind = kind ∧
      TransferQueue.Counts engine.transfers.jobs kind counters := by
  obtain ⟨listed, sameKind⟩ := indexed.row_eq_some_iff.mp isRow
  obtain ⟨counters, isCounters, rfl⟩ := List.mem_map.mp listed
  obtain ⟨key, found⟩ := OrderedMap.mem_values_iff.mp isCounters
  have counts := (indexed.rows.recounted key counters found).counts
  exact ⟨counters, rfl, sameKind, sameKind ▸ counts⟩

theorem agreesWithCounts_iff (indexed : engine.transfers.Indexed) (done : engine.CountedDone kind)
    (now : Nat) {row : QueueRow} (isRow : engine.transfers.row kind = some row)
    (finished : row.isFinished = true) :
    AgreesWithCounts (engine.entryForRow now row) ↔ ¬engine.Misjudges kind := by
  obtain ⟨counters, rfl, sameKind, counts⟩ := counters_of_row indexed isRow
  have rowKind : counters.toRow.kind = kind := sameKind
  obtain ⟨notQueued, notRunning⟩ := state_of_finished finished
  have completed := countP_uncountedJobs done isCompletedStatus
  have failed := countP_uncountedJobs done isFailedStatus
  have cancelled := countP_uncountedJobs done isCancelledStatus
  have queued := countP_uncountedJobs done isQueuedStatus
  have running := countP_uncountedJobs done isRunningStatus
  rw [← indexed.statusCount_eq] at completed failed cancelled queued running
  rw [← counts.completed, if_pos (by decide)] at completed
  rw [← counts.failed, if_neg (by decide), Nat.add_zero] at failed
  rw [← counts.cancelled, if_neg (by decide), Nat.add_zero] at cancelled
  rw [← counts.queued, if_neg (by decide), Nat.add_zero, notQueued] at queued
  rw [← counts.running, if_neg (by decide), Nat.add_zero, notRunning] at running
  have total := length_eq_statuses (engine.uncountedJobs kind)
  have filesDone : (engine.entryForRow now counters.toRow).filesDone =
      (engine.uncountedJobs kind).countP fun job => isCompletedStatus job.status := by
    rw [← rowKind]
    rfl
  have failedCount : (engine.entryForRow now counters.toRow).failedCount =
      (engine.uncountedJobs kind).countP fun job => isFailedStatus job.status := by
    rw [← rowKind, List.countP_eq_length_filter]
    rfl
  have filesTotal : (engine.entryForRow now counters.toRow).filesTotal =
      (engine.uncountedJobs kind).length := by
    rw [← rowKind]
    rfl
  rw [misjudges_iff, ← failedCount, ← filesDone]
  apply agrees_iff_counts finished rfl
  · rw [filesDone]
    exact completed
  · rw [failedCount]
    exact failed
  · rw [filesTotal, filesDone]
    omega

/-! ### What a look at the rows records -/

/-- The entry that a row gets when it is looked at. -/
def entryAt (now : Nat) (engine : Engine) (kind : RowKind) : Option HistoryEntry :=
  match engine.transfers.row kind with
  | none => none
  | some row =>
    if row.isFinished ∧ engine.history.recorded kind = false then
      some (engine.entryForRow now row)
    else none

/-- The entries of all rows that have changed. -/
def rowEntries (now : Nat) (engine : Engine) : List (RowKind × HistoryEntry) :=
  (changedKinds engine.transfers.changes).filterMap fun kind =>
    (engine.entryAt now kind).map fun entry => (kind, entry)

theorem stored_processRow (now : Nat) (engine : Engine) (kind : RowKind) :
    (engine.processRow now kind).history.stored = engine.history.stored ++
      ((engine.entryAt now kind).map fun entry => (entry, engine.uncountedJobs kind)).toList := by
  unfold processRow entryAt
  cases isRow : engine.transfers.row kind with
  | none => simp [setHistory, HistoryLog.unrecord, HistoryLog.count]
  | some row =>
    dsimp only
    split_ifs <;> simp_all [setHistory, HistoryLog.unrecord, HistoryLog.storeEntry,
      HistoryLog.record, HistoryLog.count]

@[simp]
theorem setHistory_history (engine : Engine) (history : HistoryLog) :
    (engine.setHistory history).history = history := rfl

@[simp]
theorem setHistory_transfers (engine : Engine) (history : HistoryLog) :
    (engine.setHistory history).transfers = engine.transfers := rfl

/-- What the entry of a row depends on in the history. -/
structure SameFor (kind : RowKind) (history other : HistoryLog) : Prop where
  recorded : other.recorded kind = history.recorded kind
  counted : other.counted kind = history.counted kind
  sessionNames : other.sessionNames = history.sessionNames

theorem SameFor.uncountedJobs {history : HistoryLog} (same : SameFor kind engine.history history) :
    (engine.setHistory history).uncountedJobs kind = engine.uncountedJobs kind := by
  simp only [Engine.uncountedJobs, HistoryLog.hasCounted, setHistory_history,
    setHistory_transfers, same.counted]

theorem SameFor.entryAt {history : HistoryLog} (same : SameFor kind engine.history history)
    (indexed : engine.transfers.Indexed) (now : Nat) :
    entryAt now (engine.setHistory history) kind = entryAt now engine kind := by
  simp only [Engine.entryAt, setHistory_transfers]
  cases isRow : engine.transfers.row kind with
  | none => rfl
  | some row =>
    have rowKind := (indexed.row_eq_some_iff.mp isRow).2
    have sameName : (engine.setHistory history).sessionName = engine.sessionName := by
      funext session
      simp only [sessionName, setHistory_history, same.sessionNames]
      rfl
    have sameEntry : (engine.setHistory history).entryForRow now row =
        engine.entryForRow now row := by
      simp only [entryForRow, rowKind, same.uncountedJobs, sameName]
      rfl
    simp only [setHistory_history, same.recorded, sameEntry]

theorem sameFor_processRow (engine : Engine) (now : Nat) {other : RowKind} (differs : other ≠ kind) :
    ∃ history, engine.processRow now kind = engine.setHistory history ∧
      SameFor other engine.history history := by
  unfold processRow
  split
  · refine ⟨_, rfl, ?_⟩
    constructor <;> simp [HistoryLog.unrecord, HistoryLog.count, Function.update_of_ne differs]
  · split_ifs
    · exact ⟨engine.history, rfl, rfl, rfl, rfl⟩
    · refine ⟨_, rfl, ?_⟩
      constructor <;> simp [HistoryLog.record, HistoryLog.count, HistoryLog.storeEntry,
        Function.update_of_ne differs]
    · refine ⟨_, rfl, ?_⟩
      constructor <;> simp [HistoryLog.unrecord, Function.update_of_ne differs]

theorem changedKinds_nodup (changes : List RowChange) : (changedKinds changes).Nodup := by
  unfold changedKinds
  suffices grows : ∀ kinds : List RowKind, kinds.Nodup → (changes.foldl (fun kinds change =>
      if change.kind ∈ kinds then kinds else kinds ++ [change.kind]) kinds).Nodup from
    grows [] List.nodup_nil
  induction changes with
  | nil => exact fun _ distinct => distinct
  | cons change changes ih =>
    intro kinds distinct
    apply ih
    dsimp only
    split_ifs with known
    · exact distinct
    · rw [List.nodup_append]
      refine ⟨distinct, by simp, ?_⟩
      rintro kind member _ isLast rfl
      exact known (List.mem_singleton.mp isLast ▸ member)

/-- The entries that are stored for some rows, each looked at once. -/
theorem stored_foldl_processRow (indexed : engine.transfers.Indexed) (now : Nat)
    {kinds : List RowKind} (distinct : kinds.Nodup) :
    (kinds.foldl (processRow now) engine).history.stored = engine.history.stored ++
      kinds.filterMap fun kind =>
        (engine.entryAt now kind).map fun entry => (entry, engine.uncountedJobs kind) := by
  induction kinds generalizing engine with
  | nil => simp
  | cons kind kinds ih =>
    obtain ⟨notLater, distinct⟩ := List.nodup_cons.mp distinct
    have sameIndexed : (engine.processRow now kind).transfers.Indexed := by
      rw [processRow_transfers]
      exact indexed
    rw [List.foldl_cons, ih sameIndexed distinct, stored_processRow, List.append_assoc]
    congr 1
    have others : (kinds.filterMap fun other => ((engine.processRow now kind).entryAt now
        other).map fun entry => (entry, (engine.processRow now kind).uncountedJobs other)) =
        kinds.filterMap fun other => (engine.entryAt now other).map fun entry =>
          (entry, engine.uncountedJobs other) := by
      apply List.filterMap_congr
      intro other member
      have differs : other ≠ kind := fun same => notLater (same ▸ member)
      obtain ⟨history, processed, same⟩ := sameFor_processRow engine now differs
      rw [processed, same.uncountedJobs, same.entryAt indexed]
    rw [others, List.filterMap_cons]
    cases engine.entryAt now kind <;> rfl

theorem stored_processRowChanges (indexed : engine.transfers.Indexed) (now : Nat) :
    (engine.processRowChanges now).history.stored = engine.history.stored ++
      (engine.rowEntries now).map fun recorded =>
        (recorded.2, engine.uncountedJobs recorded.1) := by
  have taken : Indexed ({ engine with transfers := engine.transfers.takeChanges.1 } :
      Engine).transfers :=
    indexed.of_fields rfl rfl rfl rfl rfl rfl rfl rfl rfl
  have stored := stored_foldl_processRow taken now (changedKinds_nodup engine.transfers.changes)
  have entries : (engine.rowEntries now).map (fun recorded =>
      (recorded.2, engine.uncountedJobs recorded.1)) =
      (changedKinds engine.transfers.changes).filterMap fun kind =>
        (engine.entryAt now kind).map fun entry => (entry, engine.uncountedJobs kind) := by
    rw [rowEntries, List.map_filterMap]
    apply List.filterMap_congr
    intro kind _
    cases engine.entryAt now kind <;> rfl
  rw [entries]
  exact stored

end Engine

/-! ### Runs -/

/-- The engine once a step has done its own work, before its rows are looked at. -/
def EngineStep.worked (engine : Engine) : EngineStep → Engine
  | .command moment given => engine.applyCommand moment given
  | .handle moment =>
    match engine.internal with
    | [] => engine
    | message :: rest => ({ engine with internal := rest }).applyInternal moment message
  | _ => engine

/-- The steps of the tasks. -/
def EngineStep.OfTask : EngineStep → Prop
  | .report _ _ | .removePart _ | .finish _ _ | .panic _ | .elsewhere _ => True
  | _ => False

/-- The time of the entries of a step. -/
def EngineStep.now : EngineStep → Nat
  | .command moment _ | .handle moment | .publish moment => moment.now
  | _ => 0

namespace Engine

variable {engine : Engine}

theorem rowEntries_of_nil (now : Nat) (reported : engine.transfers.changes = []) :
    engine.rowEntries now = [] := by
  rw [rowEntries, reported]
  rfl

theorem stored_publish (indexed : engine.transfers.Indexed) (moment : Moment) :
    ((engine.processRowChanges moment.now).requestPublish moment).history.stored =
      engine.history.stored ++ (engine.rowEntries moment.now).map fun recorded =>
        (recorded.2, engine.uncountedJobs recorded.1) := by
  have again := processRowChanges_of_nil moment.now (processRowChanges_changes moment.now engine)
  unfold requestPublish publishTransfers
  rw [again, ite_self]
  exact stored_processRowChanges indexed moment.now

theorem worked_moves (sound : engine.Sound) (reported : engine.transfers.changes = [])
    (step : EngineStep) : Moves (Allows engine step) engine (step.worked engine) := by
  cases step with
  | command moment given => exact (applyCommand_refills sound moment reported given).moves
  | handle moment =>
    cases front : engine.internal with
    | nil =>
      have same : EngineStep.worked engine (.handle moment) = engine := by
        rw [EngineStep.worked, front]
      rw [same]
      exact .refl _
    | cons message rest =>
      have isWorked : EngineStep.worked engine (.handle moment) =
          (engine.take rest).applyInternal moment message := by
        rw [EngineStep.worked, front]
        rfl
      rw [isWorked]
      exact (applyInternal_refills sound moment reported front).moves
  | publish | report | removePart | finish | panic | elsewhere => exact .refl _

theorem withLive_history {task : Nat} {act : Work → Engine}
    (kept : ∀ work, (act work).history = engine.history) :
    (engine.withLive task act).history = engine.history := by
  unfold withLive
  split
  · rfl
  · exact kept _

theorem sendIf_history (message : Option Internal) :
    (engine.sendIf message).history = engine.history := by
  cases message <;> rfl

/-- What the tasks do is no matter of the history. -/
theorem next_history (step : EngineStep) (ofTask : step.OfTask) :
    (step.next engine).history = engine.history := by
  cases step with
  | command | handle | publish => exact ofTask.elim
  | report task told => exact withLive_history fun work => sendIf_history _
  | removePart task =>
    apply withLive_history
    intro work
    unfold removeNextPart
    split <;> rfl
  | finish task result =>
    apply withLive_history
    intro work
    cases work.result result <;> rfl
  | panic task => exact withLive_history fun work => rfl
  | elsewhere panicked =>
    rcases panicked with _ | ⟨name, scope⟩
    · rfl
    · unfold EngineStep.next
      dsimp only
      split_ifs <;> rfl

theorem worked_of_task (step : EngineStep) (ofTask : step.OfTask) :
    step.worked engine = engine := by
  cases step with
  | command | handle | publish => exact ofTask.elim
  | report | removePart | finish | panic | elsewhere => rfl

theorem stored_of_task (reported : engine.transfers.changes = []) (step : EngineStep)
    (ofTask : step.OfTask) :
    (step.next engine).history.stored = (step.worked engine).history.stored ++
      ((step.worked engine).rowEntries step.now).map fun recorded =>
        (recorded.2, (step.worked engine).uncountedJobs recorded.1) := by
  rw [worked_of_task step ofTask, rowEntries_of_nil _ reported, next_history step ofTask]
  exact (List.append_nil _).symm

/-- A step stores the entries of the rows that its work has changed. -/
theorem stored_next (sound : engine.Sound) (reported : engine.transfers.changes = [])
    (step : EngineStep) :
    (step.next engine).history.stored = (step.worked engine).history.stored ++
      ((step.worked engine).rowEntries step.now).map fun recorded =>
        (recorded.2, (step.worked engine).uncountedJobs recorded.1) := by
  have indexed := ((worked_moves sound reported step).sound sound).indexed
  cases step with
  | command moment given => exact stored_publish indexed moment
  | publish moment => exact stored_processRowChanges indexed moment.now
  | handle moment =>
    unfold EngineStep.worked at indexed ⊢
    unfold EngineStep.next
    cases front : engine.internal with
    | nil =>
      dsimp only
      rw [rowEntries_of_nil _ reported]
      exact (List.append_nil _).symm
    | cons message rest =>
      rw [front] at indexed
      dsimp only at indexed ⊢
      unfold handleInternal
      split
      · rename_i id transferred
        have taken := (take_moves front rfl).sound sound
        have unchanged : (({ engine with internal := rest } : Engine).transferProgress id
            transferred).transfers.changes = [] :=
          (transferProgress_changes taken id transferred).trans reported
        have nothing := processRowChanges_of_nil moment.now unchanged
        have applied : ({ engine with internal := rest } : Engine).applyInternal moment
            (.transfer (.progress id transferred)) =
            ({ engine with internal := rest } : Engine).transferProgress id transferred := rfl
        unfold requestPublish publishTransfers
        rw [applied, nothing, ite_self, rowEntries_of_nil _ unchanged]
        exact (List.append_nil _).symm
      · exact stored_publish indexed moment
  | report task told | removePart task | finish task result | panic task | elsewhere panicked =>
    exact stored_of_task reported _ trivial

/-! ### The entries of a run -/

/-- What a run records for its finished rows, each time with the engine that was looked at. -/
def rowHistory (engine : Engine) : List EngineStep → List (Engine × RowKind × HistoryEntry)
  | [] => []
  | step :: steps =>
    (((step.worked engine).rowEntries step.now).map fun recorded =>
      (step.worked engine, recorded)) ++ (step.next engine).rowHistory steps

theorem mem_rowEntries {now : Nat} {kind : RowKind} {entry : HistoryEntry}
    (recorded : (kind, entry) ∈ engine.rowEntries now) :
    ∃ row, engine.transfers.row kind = some row ∧ row.isFinished = true ∧
      entry = engine.entryForRow now row := by
  obtain ⟨other, _, isEntry⟩ := List.mem_filterMap.mp recorded
  obtain ⟨entry, entryAt, same⟩ := Option.map_eq_some_iff.mp isEntry
  cases same
  unfold Engine.entryAt at entryAt
  cases isRow : engine.transfers.row kind with
  | none =>
    rw [isRow] at entryAt
    cases entryAt
  | some row =>
    rw [isRow] at entryAt
    dsimp only at entryAt
    split_ifs at entryAt with finished
    cases entryAt
    exact ⟨row, rfl, finished.1, rfl⟩

theorem worked_counts (steady : engine.Steady) (counts : engine.Counts (Changed engine.transfers))
    (step : EngineStep) :
    (step.worked engine).Counts (Changed (step.worked engine).transfers) :=
  ((worked_moves steady.sound steady.reported step).invariant
    (fun engine => engine.Counts (Changed engine.transfers)) steady.sound counts
      fun _ sound move still => still.move sound move).2

theorem rowHistory_agrees_iff (steady : engine.Steady)
    (counts : engine.Counts (Changed engine.transfers)) (steps : List EngineStep)
    {looked : Engine} {kind : RowKind} {entry : HistoryEntry}
    (recorded : (looked, kind, entry) ∈ engine.rowHistory steps) :
    AgreesWithCounts entry ↔ ¬looked.Misjudges kind := by
  induction steps generalizing engine with
  | nil => cases recorded
  | cons step steps ih =>
    rcases List.mem_append.mp recorded with now | later
    · obtain ⟨_, member, same⟩ := List.mem_map.mp now
      cases same
      obtain ⟨row, isRow, finished, rfl⟩ := mem_rowEntries member
      have indexed :=
        ((worked_moves steady.sound steady.reported step).sound steady.sound).indexed
      have done := (worked_counts steady counts step).countedDone indexed kind
      exact agreesWithCounts_iff indexed done step.now isRow finished
    · exact ih (steady.next step) (steady.counts counts [step]) later

/-- The entries of finished rows say what they count as long as no row is misjudged. -/
theorem rowHistory_of_run (localFs : FsTraits) (maxParallel : Nat) (onConflict : ConflictPolicy)
    (store : List HistoryEntry) (steps : List EngineStep) :
    let start := Engine.new localFs maxParallel onConflict store
    ((∀ recorded ∈ start.rowHistory steps, AgreesWithCounts recorded.2.2) ↔
        ∀ recorded ∈ start.rowHistory steps, ¬recorded.1.Misjudges recorded.2.1) ∧
      ∀ step : EngineStep, (step.next (start.after steps)).history.stored =
        (step.worked (start.after steps)).history.stored ++
          ((step.worked (start.after steps)).rowEntries step.now).map fun recorded =>
            (recorded.2, (step.worked (start.after steps)).uncountedJobs recorded.1) := by
  intro start
  have steady : start.Steady := steady_new localFs maxParallel onConflict store
  have counts := counts_new localFs maxParallel onConflict store
  refine ⟨?_, fun step => ?_⟩
  · exact forall₂_congr fun _ member => rowHistory_agrees_iff steady counts steps member
  · exact stored_next (steady.after steps).sound (steady.after steps).reported step

/-- Two files of one copy: the first arrives and the second fails three times. -/
def failingCopy : List EngineStep :=
  connectSteps ++
    [.command .usual (.copy .local
      [⟨"a", ⟨"/home/a"⟩, false, 3⟩, ⟨"b", ⟨"/home/b"⟩, false, 4⟩] (.session 0)),
    .finish 1 (.planned
      ⟨[firstFile, ⟨⟨"/home/b"⟩, ⟨"/srv/b"⟩, "b", 4, none, none, none, false⟩], 0, fun _ => []⟩),
    .handle .usual, .finish 2 (.executed .completed), .handle .usual] ++
    [3, 4, 5].flatMap fun task => [.finish task (.failed "x"), .handle .usual]

/-- The user tries again, and the second file fails again. -/
def failingRetry : List EngineStep :=
  failingCopy ++ [.command .usual (.retryRow (.batch 0))] ++
    [6, 7, 8].flatMap fun task => [.finish task (.failed "x"), .handle .usual]

instance (engine : Engine) (kind : RowKind) : Decidable (engine.Misjudges kind) :=
  inferInstanceAs (Decidable (_ ∧ _ ∧ _))

theorem rowHistory_of_run_failing :
    ((Engine.new .oneAtATime 2 .ask []).rowHistory failingCopy).length = 1 ∧
      ∀ recorded ∈ (Engine.new .oneAtATime 2 .ask []).rowHistory failingCopy,
        AgreesWithCounts recorded.2.2 :=
  ⟨by decide +kernel, (rowHistory_of_run .oneAtATime 2 .ask [] failingCopy).1.mpr
    (by decide +kernel)⟩

theorem partlyFailed_without_done :
    ¬∀ recorded ∈ (Engine.new .oneAtATime 2 .ask []).rowHistory failingRetry,
      AgreesWithCounts recorded.2.2 := by
  have disagrees : ∃ recorded ∈ (Engine.new .oneAtATime 2 .ask []).rowHistory failingRetry,
      recorded.2.2.result = .partlyFailed 1 ∧ recorded.2.2.filesDone = 0 := by
    decide +kernel
  intro agrees
  obtain ⟨recorded, member, partly, noneDone⟩ := disagrees
  obtain ⟨-, -, someDone⟩ := ((agrees recorded member).partlyFailed 1).mp partly
  exact absurd someDone (by rw [noneDone]; exact lt_irrefl 0)

end Engine

end Porthmos
