import Porthmos.EngineRuns

/-!
# What the history counts

Every entry adds up its jobs.  A completed job is counted by one entry, made when its row
finishes or when the engine stops, and by no other, however often its row is taken up
again.
-/

namespace Porthmos

open TransferQueue

/-! ### Entries -/

/-- The entry counts the job among the files that are done. -/
def speaksFor (id : Nat) (entry : HistoryEntry × List TransferJob) : Bool :=
  entry.2.any fun job => decide (job.id = id ∧ job.status = .completed)

/-- The entry adds up its jobs, none of them twice. -/
structure AddsUp (entry : HistoryEntry × List TransferJob) : Prop where
  filesDone : entry.1.filesDone = entry.2.countP fun job => decide (job.status = .completed)
  bytes : entry.1.bytes = (entry.2.map entryBytes).sum
  nodup : (entry.2.map TransferJob.id).Nodup

theorem speaksFor_eq_true {id : Nat} {entry : HistoryEntry × List TransferJob} :
    speaksFor id entry = true ↔ ∃ job ∈ entry.2, job.id = id ∧ job.status = .completed := by
  simp [speaksFor]

/-! ### Rows -/

/-- The row has changed since the changes were last taken. -/
def Changed (queue : TransferQueue) (kind : RowKind) : Prop :=
  ∃ change ∈ queue.changes, change.kind = kind

theorem TransferQueue.Reported.changed {queue result : TransferQueue} (reported : Reported queue result)
    {kind : RowKind} (unchanged : ¬ Changed result kind) :
    ¬ Changed queue kind ∧ (RowFinished result.jobs kind ↔ RowFinished queue.jobs kind) := by
  obtain ⟨appended, changes, rows⟩ := reported
  rw [Changed, changes] at unchanged
  refine ⟨?_, rows kind fun change member same =>
    unchanged ⟨change, List.mem_append_right _ member, same⟩⟩
  rintro ⟨change, member, same⟩
  exact unchanged ⟨change, List.mem_append_left _ member, same⟩

theorem mem_changedKinds {changes : List RowChange} {kind : RowKind} :
    kind ∈ Engine.changedKinds changes ↔ ∃ change ∈ changes, change.kind = kind := by
  have collects (kinds : List RowKind) : kind ∈ changes.foldl
          (fun kinds change => if change.kind ∈ kinds then kinds else kinds ++ [change.kind]) kinds ↔
        kind ∈ kinds ∨ ∃ change ∈ changes, change.kind = kind := by
    induction changes generalizing kinds with
    | nil => simp
    | cons first rest ih =>
      rw [List.foldl_cons, ih]
      by_cases isOld : first.kind ∈ kinds
      · rw [if_pos isOld]
        simp only [List.mem_cons, exists_eq_or_imp]
        constructor
        · rintro (old | later)
          · exact Or.inl old
          · exact Or.inr (Or.inr later)
        · rintro (old | rfl | later)
          · exact Or.inl old
          · exact Or.inl isOld
          · exact Or.inr later
      · rw [if_neg isOld]
        simp only [List.mem_append, List.mem_cons, List.not_mem_nil, false_or, exists_eq_or_imp,
          or_assoc]
        rw [eq_comm (a := kind)]
  exact (collects []).trans (by simp)

namespace Engine

variable {engine : Engine} {id : Nat}

theorem speaksFor_uncounted (indexed : engine.transfers.Indexed) (entry : HistoryEntry)
    (kind : RowKind) :
    speaksFor id (entry, engine.uncountedJobs kind) = true ↔
      ∃ job, engine.transfers.jobs.get? id = some job ∧ kindOf job = kind ∧
        engine.history.hasCounted kind id = false ∧ job.status = .completed := by
  rw [speaksFor_eq_true]
  unfold uncountedJobs
  simp only [List.mem_filter, indexed.mem_jobsOf]
  constructor
  · rintro ⟨job, ⟨⟨found, inRow⟩, notCounted⟩, rfl, completed⟩
    exact ⟨job, found, inRow, by simpa using notCounted, completed⟩
  · rintro ⟨job, found, inRow, notCounted, completed⟩
    obtain rfl := (indexed.jobs_id id job found).1
    exact ⟨job, ⟨⟨found, inRow⟩, by simpa using notCounted⟩, rfl, completed⟩

theorem mem_uncountedJobs (indexed : engine.transfers.Indexed) {kind : RowKind} {job : TransferJob}
    (member : job ∈ engine.uncountedJobs kind) : engine.transfers.jobs.get? job.id = some job :=
  (indexed.mem_jobsOf.mp (List.mem_filter.mp member).1).1

theorem entryForRow_addsUp (indexed : engine.transfers.Indexed) (now : Nat) (row : QueueRow) :
    AddsUp (engine.entryForRow now row, engine.uncountedJobs row.kind) := by
  refine ⟨?_, ?_, (indexed.jobsOf_nodup row.kind).sublist (List.filter_sublist.map _)⟩ <;>
    · unfold entryForRow entryOfJobs
      dsimp only

end Engine

/-! ### How the history stands to the jobs -/

/-- The rows of `pending` have changed since they were looked at; every other row is recorded
if and only if it has finished.  What is counted is completed and in one entry. -/
structure HistoryCounts (pending : RowKind → Prop) (jobs : Jobs) (next : Nat)
    (history : HistoryLog) : Prop where
  recorded_iff : ∀ kind, ¬ pending kind → (history.recorded kind = true ↔ RowFinished jobs kind)
  recorded_counted : ∀ id job, jobs.get? id = some job → job.status = .completed →
    history.recorded (kindOf job) = true → history.hasCounted (kindOf job) id = true
  counted : ∀ id job, jobs.get? id = some job → history.hasCounted (kindOf job) id = true →
    job.status = .completed ∧ history.stored.countP (speaksFor id) = 1
  uncounted : ∀ id job, jobs.get? id = some job → history.hasCounted (kindOf job) id = false →
    history.stored.countP (speaksFor id) = 0
  counted_lt : ∀ kind id, history.hasCounted kind id = true → id < next
  stored_lt : ∀ entry ∈ history.stored, ∀ job ∈ entry.2, job.id < next
  totals : ∀ entry ∈ history.stored, ∀ job ∈ entry.2, ∀ last, jobs.get? job.id = some last →
    last.totalBytes = job.totalBytes
  addsUp : ∀ entry ∈ history.stored, AddsUp entry

namespace HistoryCounts

variable {pending later : RowKind → Prop} {jobs result : Jobs} {next limit : Nat}
  {history : HistoryLog}

theorem countP_of_le (counts : HistoryCounts pending jobs next history) {id : Nat}
    (isNew : next ≤ id) : history.stored.countP (speaksFor id) = 0 := by
  rw [List.countP_eq_zero]
  intro entry member speaks
  obtain ⟨job, inEntry, rfl, _⟩ := speaksFor_eq_true.mp speaks
  exact absurd (counts.stored_lt entry member job inEntry) isNew.not_gt

/-- What the history makes of a job after a move: it is the job that it was, not completed
anew in a recorded row, or it is new. -/
def Follows (jobs : Jobs) (next : Nat) (history : HistoryLog) (id : Nat) (last : TransferJob) :
    Prop :=
  (∃ job, jobs.get? id = some job ∧ kindOf last = kindOf job ∧ last.totalBytes = job.totalBytes ∧
    (job.status = .completed → last.status = .completed) ∧
    (last.status = .completed →
      job.status = .completed ∨ history.recorded (kindOf job) = false)) ∨
  next ≤ id ∧ last.status ≠ .completed

/-- Jobs may come, go and change as long as what is completed stays so. -/
theorem of_jobs (counts : HistoryCounts pending jobs next history) (le : next ≤ limit)
    (rows : ∀ kind, ¬ later kind → ¬ pending kind ∧ (RowFinished result kind ↔ RowFinished jobs kind))
    (follows : ∀ id last, result.get? id = some last → Follows jobs next history id last) :
    HistoryCounts later result limit history := by
  constructor
  · intro kind unchanged
    obtain ⟨notPending, same⟩ := rows kind unchanged
    rw [same, counts.recorded_iff kind notPending]
  · intro id last found completed recorded
    rcases follows id last found with ⟨job, isJob, sameRow, _, _, wasDone⟩ | ⟨_, notDone⟩
    · rw [sameRow] at recorded ⊢
      rcases wasDone completed with done | notRecorded
      · exact counts.recorded_counted id job isJob done recorded
      · rw [recorded] at notRecorded
        cases notRecorded
    · exact absurd completed notDone
  · intro id last found isCounted
    rcases follows id last found with ⟨job, isJob, sameRow, _, stays, _⟩ | ⟨isNew, _⟩
    · rw [sameRow] at isCounted
      obtain ⟨completed, once⟩ := counts.counted id job isJob isCounted
      exact ⟨stays completed, once⟩
    · exact absurd (counts.counted_lt _ id isCounted) isNew.not_gt
  · intro id last found notCounted
    rcases follows id last found with ⟨job, isJob, sameRow, _⟩ | ⟨isNew, _⟩
    · exact counts.uncounted id job isJob (sameRow ▸ notCounted)
    · exact counts.countP_of_le isNew
  · exact fun kind id isCounted => (counts.counted_lt kind id isCounted).trans_le le
  · exact fun entry member job inEntry => (counts.stored_lt entry member job inEntry).trans_le le
  · intro entry member job inEntry last found
    rcases follows job.id last found with ⟨earlier, isEarlier, _, sameTotal, _⟩ | ⟨isNew, _⟩
    · exact sameTotal.trans (counts.totals entry member job inEntry earlier isEarlier)
    · exact absurd (counts.stored_lt entry member job inEntry) isNew.not_gt
  · exact counts.addsUp

theorem change (counts : HistoryCounts pending jobs next history) {id : Nat}
    {job changed : TransferJob} (found : jobs.get? id = some job) (kept : KeepsRow job changed)
    (rows : ∀ kind, ¬ later kind →
      ¬ pending kind ∧ (RowFinished (jobs.insert id changed) kind ↔ RowFinished jobs kind))
    (stays : job.status = .completed → changed.status = .completed)
    (wasDone : changed.status = .completed →
      job.status = .completed ∨ history.recorded (kindOf job) = false) :
    HistoryCounts later (jobs.insert id changed) next history := by
  refine counts.of_jobs le_rfl rows fun other last isLast => Or.inl ?_
  rcases OrderedMap.get?_insert_cases isLast with ⟨rfl, rfl⟩ | ⟨_, earlier⟩
  · exact ⟨job, found, kept.kindOf, kept.totalBytes, stays, wasDone⟩
  · exact ⟨last, earlier, rfl, rfl, fun done => done, Or.inl⟩

/-- Entries that are about no jobs change nothing. -/
theorem logs (counts : HistoryCounts pending jobs next history) {result : HistoryLog}
    (recorded : result.recorded = history.recorded) (counted : result.counted = history.counted)
    {entries : List (HistoryEntry × List TransferJob)}
    (stored : result.stored = history.stored ++ entries)
    (empty : ∀ entry ∈ entries, entry.1.filesDone = 0 ∧ entry.1.bytes = 0 ∧ entry.2 = []) :
    HistoryCounts pending jobs next result := by
  have sameCounted (kind : RowKind) (id : Nat) :
      result.hasCounted kind id = history.hasCounted kind id := by
    unfold HistoryLog.hasCounted
    rw [counted]
  have sameStored (id : Nat) : result.stored.countP (speaksFor id) =
      history.stored.countP (speaksFor id) := by
    rw [stored, List.countP_append, Nat.add_eq_left, List.countP_eq_zero]
    intro entry member speaks
    obtain ⟨job, inEntry, _⟩ := speaksFor_eq_true.mp speaks
    rw [(empty entry member).2.2] at inEntry
    exact absurd inEntry List.not_mem_nil
  have earlier {entry : HistoryEntry × List TransferJob} (member : entry ∈ result.stored) :
      entry ∈ history.stored ∨ entry.1.filesDone = 0 ∧ entry.1.bytes = 0 ∧ entry.2 = [] := by
    rw [stored, List.mem_append] at member
    exact member.imp_right (empty entry)
  have old {entry : HistoryEntry × List TransferJob} {job : TransferJob}
      (member : entry ∈ result.stored) (inEntry : job ∈ entry.2) : entry ∈ history.stored := by
    rcases earlier member with isOld | ⟨_, _, none⟩
    · exact isOld
    · rw [none] at inEntry
      exact absurd inEntry List.not_mem_nil
  constructor
  · exact fun kind => recorded ▸ counts.recorded_iff kind
  · intro id job found
    rw [recorded, sameCounted]
    exact counts.recorded_counted id job found
  · intro id job found
    rw [sameCounted, sameStored]
    exact counts.counted id job found
  · intro id job found
    rw [sameCounted, sameStored]
    exact counts.uncounted id job found
  · intro kind id
    rw [sameCounted]
    exact counts.counted_lt kind id
  · exact fun entry member job inEntry => counts.stored_lt entry (old member inEntry) job inEntry
  · exact fun entry member job inEntry => counts.totals entry (old member inEntry) job inEntry
  · intro entry member
    rcases earlier member with isOld | ⟨noFiles, noBytes, none⟩
    · exact counts.addsUp entry isOld
    · refine ⟨?_, ?_, ?_⟩ <;> rw [none]
      · exact noFiles
      · exact noBytes
      · exact List.nodup_nil

theorem unrecord (counts : HistoryCounts pending jobs next history) {kind : RowKind}
    (unfinished : ¬ RowFinished jobs kind) (others : ∀ other, pending other → other = kind ∨ later other) :
    HistoryCounts later jobs next (history.unrecord kind) := by
  have recorded (other : RowKind) : (history.unrecord kind).recorded other =
      if other = kind then false else history.recorded other := Function.update_apply _ _ _ _
  refine ⟨fun other unchanged => ?_, fun id job found completed isRecorded => ?_, counts.counted,
    counts.uncounted, counts.counted_lt, counts.stored_lt, counts.totals, counts.addsUp⟩
  · rw [recorded]
    split_ifs with same
    · subst same
      exact ⟨nofun, fun finished => absurd finished unfinished⟩
    · exact counts.recorded_iff other fun isPending => (others other isPending).elim same unchanged
  · rw [recorded] at isRecorded
    split_ifs at isRecorded
    exact counts.recorded_counted id job found completed isRecorded

/-- What is counted of a row without jobs does not matter. -/
theorem forgetCount (counts : HistoryCounts pending jobs next history) {kind : RowKind}
    (noJobs : ∀ id job, jobs.get? id = some job → kindOf job ≠ kind) :
    HistoryCounts pending jobs next (history.count kind none) := by
  have hasCounted (other : RowKind) (id : Nat) : (history.count kind none).hasCounted other id =
      if other = kind then false else history.hasCounted other id := by
    unfold HistoryLog.hasCounted HistoryLog.count
    dsimp only
    rw [Function.update_apply]
    split_ifs <;> rfl
  have ofJob {id : Nat} {job : TransferJob} (found : jobs.get? id = some job) :
      (history.count kind none).hasCounted (kindOf job) id = history.hasCounted (kindOf job) id := by
    rw [hasCounted, if_neg (noJobs id job found)]
  refine ⟨counts.recorded_iff, fun id job found => ?_, fun id job found => ?_, fun id job found => ?_,
    fun other id isCounted => ?_, counts.stored_lt, counts.totals, counts.addsUp⟩
  · rw [ofJob found]
    exact counts.recorded_counted id job found
  · rw [ofJob found]
    exact counts.counted id job found
  · rw [ofJob found]
    exact counts.uncounted id job found
  · rw [hasCounted] at isCounted
    split_ifs at isCounted
    exact counts.counted_lt other id isCounted

end HistoryCounts

namespace Engine

variable {engine : Engine} {pending later : RowKind → Prop} {kind : RowKind} {id : Nat}

/-- The history of an engine and its jobs. -/
def Counts (engine : Engine) (pending : RowKind → Prop) : Prop :=
  HistoryCounts pending engine.transfers.jobs engine.transfers.nextId engine.history

theorem countP_store (history : HistoryLog) (entry : HistoryEntry) (jobs : List TransferJob) :
    (history.storeEntry entry jobs).stored.countP (speaksFor id) =
      history.stored.countP (speaksFor id) + if speaksFor id (entry, jobs) then 1 else 0 := by
  unfold HistoryLog.storeEntry
  dsimp only
  rw [List.countP_append, List.countP_singleton]

theorem mem_store {history : HistoryLog} {entry : HistoryEntry} {jobs : List TransferJob}
    {stored : HistoryEntry × List TransferJob}
    (member : stored ∈ (history.storeEntry entry jobs).stored) :
    stored ∈ history.stored ∨ stored = (entry, jobs) := by
  rw [← List.mem_singleton, ← List.mem_append]
  exact member

theorem mem_completedIds (indexed : engine.transfers.Indexed) :
    id ∈ engine.completedIds kind ↔ ∃ job, engine.transfers.jobs.get? id = some job ∧
      kindOf job = kind ∧ job.status = .completed := by
  unfold completedIds
  simp only [List.mem_map, List.mem_filter, indexed.mem_jobsOf, decide_eq_true_eq]
  constructor
  · rintro ⟨job, ⟨⟨found, inRow⟩, completed⟩, rfl⟩
    exact ⟨job, found, inRow, completed⟩
  · rintro ⟨job, found, inRow, completed⟩
    obtain rfl := (indexed.jobs_id id job found).1
    exact ⟨job, ⟨⟨found, inRow⟩, completed⟩, rfl⟩

/-- The history after the entry of a row that has finished. -/
def storeRow (engine : Engine) (kind : RowKind) (entry : HistoryEntry) : HistoryLog :=
  ((engine.history.record kind).count kind (some (engine.completedIds kind))).storeEntry entry
    (engine.uncountedJobs kind)

theorem recorded_storeRow (entry : HistoryEntry) (other : RowKind) :
    (engine.storeRow kind entry).recorded other =
      if other = kind then true else engine.history.recorded other :=
  Function.update_apply _ _ _ _

theorem hasCounted_storeRow (indexed : engine.transfers.Indexed) (entry : HistoryEntry)
    (other : RowKind) :
    (engine.storeRow kind entry).hasCounted other id = true ↔
      if other = kind then ∃ job, engine.transfers.jobs.get? id = some job ∧ kindOf job = kind ∧
        job.status = .completed
      else engine.history.hasCounted other id = true := by
  have counted : (engine.storeRow kind entry).counted other =
      if other = kind then some (engine.completedIds kind) else engine.history.counted other :=
    Function.update_apply _ _ _ _
  unfold HistoryLog.hasCounted
  rw [counted]
  split_ifs
  · rw [Option.any_some, decide_eq_true_iff, mem_completedIds indexed]
  · rfl

/-- A row that has finished and is not recorded gets an entry, after which all its completed jobs
are counted. -/
theorem Counts.storeRow (counts : engine.Counts pending) (indexed : engine.transfers.Indexed)
    (finished : RowFinished engine.transfers.jobs kind) {entry : HistoryEntry}
    (addsUp : AddsUp (entry, engine.uncountedJobs kind))
    (others : ∀ other, pending other → other = kind ∨ later other) :
    HistoryCounts later engine.transfers.jobs engine.transfers.nextId
      (engine.storeRow kind entry) := by
  have hasCounted (other : RowKind) (id : Nat) :
      (engine.storeRow kind entry).hasCounted other id = true ↔ _ :=
    hasCounted_storeRow indexed entry other
  have spoken (id : Nat) : (engine.storeRow kind entry).stored.countP (speaksFor id) =
      engine.history.stored.countP (speaksFor id) +
        if speaksFor id (entry, engine.uncountedJobs kind) then 1 else 0 := countP_store _ _ _
  have speaks (id : Nat) : speaksFor id (entry, engine.uncountedJobs kind) = true ↔ _ :=
    speaksFor_uncounted indexed entry kind
  constructor
  · intro other unchanged
    rw [recorded_storeRow]
    split_ifs with same
    · subst same
      exact ⟨fun _ => finished, fun _ => rfl⟩
    · exact counts.recorded_iff other fun isPending => (others other isPending).elim same unchanged
  · intro id job found completed isRecorded
    rw [recorded_storeRow] at isRecorded
    rw [hasCounted]
    split_ifs at isRecorded ⊢ with inRow
    · exact ⟨job, found, inRow, completed⟩
    · exact counts.recorded_counted id job found completed isRecorded
  · intro id job found isCounted
    rw [hasCounted] at isCounted
    rw [spoken]
    split_ifs at isCounted with inRow
    · obtain ⟨again, isAgain, _, completed⟩ := isCounted
      cases found.symm.trans isAgain
      refine ⟨completed, ?_⟩
      -- The job was counted by an earlier entry, or it is by this one.
      cases before : engine.history.hasCounted (kindOf job) id with
      | true =>
        rw [(counts.counted id job found before).2, if_neg, Nat.add_zero]
        rw [speaks]
        rintro ⟨_, _, _, notCounted, _⟩
        rw [← inRow, before] at notCounted
        cases notCounted
      | false =>
        rw [counts.uncounted id job found before, if_pos, Nat.zero_add]
        rw [speaks]
        exact ⟨job, found, inRow, inRow ▸ before, completed⟩
    · obtain ⟨completed, once⟩ := counts.counted id job found isCounted
      refine ⟨completed, ?_⟩
      rw [once, if_neg, Nat.add_zero]
      rw [speaks]
      rintro ⟨again, isAgain, isRow, _⟩
      cases found.symm.trans isAgain
      exact inRow isRow
  · intro id job found notCounted
    rw [← Bool.not_eq_true, hasCounted] at notCounted
    have earlier : engine.history.hasCounted (kindOf job) id = false := by
      rw [← Bool.not_eq_true]
      intro before
      refine notCounted ?_
      split_ifs with inRow
      · exact ⟨job, found, inRow, (counts.counted id job found before).1⟩
      · exact before
    rw [spoken, counts.uncounted id job found earlier, if_neg]
    rw [speaks]
    rintro ⟨again, isAgain, isRow, _, completed⟩
    cases found.symm.trans isAgain
    rw [if_pos isRow] at notCounted
    exact notCounted ⟨job, found, isRow, completed⟩
  · intro other id isCounted
    rw [hasCounted] at isCounted
    split_ifs at isCounted
    · obtain ⟨job, found, _⟩ := isCounted
      exact (indexed.jobs_id id job found).2
    · exact counts.counted_lt other id isCounted
  · intro stored member job inEntry
    rcases mem_store member with old | rfl
    · exact counts.stored_lt stored old job inEntry
    · exact (indexed.jobs_id _ job (mem_uncountedJobs indexed inEntry)).2
  · intro stored member job inEntry last found
    rcases mem_store member with old | rfl
    · exact counts.totals stored old job inEntry last found
    · cases found.symm.trans (mem_uncountedJobs indexed inEntry)
      rfl
  · intro stored member
    rcases mem_store member with old | rfl
    · exact counts.addsUp stored old
    · exact addsUp

/-! ### Looking at the rows -/

/-- Once a row was looked at it is recorded if and only if it has finished. -/
theorem Counts.processRow (counts : engine.Counts pending) (indexed : engine.transfers.Indexed)
    (now : Nat) (others : ∀ other, pending other → other = kind ∨ later other) :
    (engine.processRow now kind).Counts later := by
  unfold Engine.processRow
  rcases indexed.row_cases kind with ⟨noRow, noJobs⟩ | ⟨row, isRow, isFinished⟩
  · rw [noRow]
    have unfinished : ¬ RowFinished engine.transfers.jobs kind := fun finished => by
      obtain ⟨id, job, found, inRow⟩ := finished.some_job
      exact noJobs id job found inRow
    exact (HistoryCounts.unrecord counts unfinished others).forgetCount noJobs
  · rw [isRow]
    dsimp only
    split_ifs with finished recorded
    · -- The row is recorded already.
      refine ⟨fun other unchanged => ?_, counts.recorded_counted, counts.counted, counts.uncounted,
        counts.counted_lt, counts.stored_lt, counts.totals, counts.addsUp⟩
      by_cases same : other = kind
      · subst same
        exact ⟨fun _ => isFinished.mp finished, fun _ => recorded⟩
      · exact counts.recorded_iff other fun isPending => (others other isPending).elim same unchanged
    · exact counts.storeRow indexed (isFinished.mp finished)
        ((indexed.row_eq_some_iff.mp isRow).2 ▸ entryForRow_addsUp indexed now row) others
    · exact HistoryCounts.unrecord counts (fun isDone => finished (isFinished.mpr isDone)) others

theorem processRow_transfers (now : Nat) (engine : Engine) (kind : RowKind) :
    (engine.processRow now kind).transfers = engine.transfers := by
  unfold processRow setHistory
  split
  · rfl
  · split_ifs <;> rfl

/-- Once all changed rows were looked at no row is pending. -/
theorem Counts.processRowChanges (indexed : engine.transfers.Indexed) (now : Nat)
    (counts : engine.Counts (Changed engine.transfers)) :
    (engine.processRowChanges now).Counts (Changed (engine.processRowChanges now).transfers) := by
  have rows (kinds : List RowKind) {start : Engine} (startIndexed : start.transfers.Indexed)
      (startCounts : start.Counts (· ∈ kinds)) :
      (kinds.foldl (Engine.processRow now) start).Counts fun _ => False := by
    induction kinds generalizing start with
    | nil => simpa using startCounts
    | cons kind rest ih =>
      refine ih ?_ (startCounts.processRow startIndexed now fun other => List.mem_cons.mp)
      rw [processRow_transfers]
      exact startIndexed
  have taken : Indexed engine.transfers.takeChanges.1 :=
    indexed.of_fields rfl rfl rfl rfl rfl rfl rfl rfl rfl
  have start : ({ engine with transfers := engine.transfers.takeChanges.1 } : Engine).Counts
      (· ∈ changedKinds engine.transfers.changes) := by
    refine ⟨fun kind unchanged => counts.recorded_iff kind fun changed => ?_, counts.recorded_counted,
      counts.counted, counts.uncounted, counts.counted_lt, counts.stored_lt, counts.totals,
      counts.addsUp⟩
    exact unchanged (mem_changedKinds.mpr changed)
  have last := rows _ taken start
  refine ⟨fun kind _ => last.recorded_iff kind not_false, last.recorded_counted, last.counted,
    last.uncounted, last.counted_lt, last.stored_lt, last.totals, last.addsUp⟩

/-! ### Moves -/

variable {label : Label} {before after : Engine}

theorem failedJob_not_completed (cancelled : Bool) (text : String) {job : TransferJob} :
    (failedJob cancelled text job).status ≠ .completed := by
  unfold failedJob
  split_ifs <;> exact nofun

theorem Counts.move (counts : before.Counts (Changed before.transfers)) (sound : before.Sound)
    (move : Move label before after) : after.Counts (Changed after.transfers) := by
  -- A job changes without being completed.
  have changed {queue : TransferQueue} {id : Nat} {job last : TransferJob}
      (change : JobChanged before.transfers queue id job last)
      (stays : job.status = .completed → last.status = .completed)
      (wasDone : last.status = .completed →
        job.status = .completed ∨ before.history.recorded (kindOf job) = false) :
      HistoryCounts (Changed queue) queue.jobs queue.nextId before.history := by
    have result := HistoryCounts.change counts change.found change.kept
      (change.jobs_eq ▸ fun kind unchanged => change.reported.changed unchanged) stays wasDone
    rwa [← change.jobs_eq, ← change.nextId_eq] at result
  have kept {queue : TransferQueue} (isKept : JobsKept before.transfers queue) :
      HistoryCounts (Changed queue) queue.jobs queue.nextId before.history := by
    refine HistoryCounts.of_jobs counts isKept.nextId_eq.ge
      (fun kind unchanged => isKept.reported.changed unchanged) fun id last found => Or.inl ?_
    exact ⟨last, isKept.jobs_eq ▸ found, rfl, rfl, fun done => done, Or.inl⟩
  cases move with
  | plans scan work scanning kind isNew isKept => exact kept isKept
  | begins waiting live room change => exact changed change (by simp [waiting]) nofun
  | abandons waiting ended change =>
    refine changed change (by simp [waiting]) ?_
    rintro rfl
    cases ended
  | retries interrupted live change =>
    refine changed change (fun done => ?_) nofun
    rw [done] at interrupted
    cases interrupted
  | advances transferred change => exact changed change (fun done => done) Or.inl
  | enqueues inBatch waiting untried live settled sameSession entered =>
    refine HistoryCounts.of_jobs counts (entered.nextId_eq.symm ▸ Nat.le_succ _)
      (fun kind unchanged => entered.reported.changed unchanged) fun id last found => ?_
    rw [entered.jobs_eq] at found
    rcases OrderedMap.get?_insert_cases found with ⟨rfl, rfl⟩ | ⟨_, earlier⟩
    · exact Or.inr ⟨le_rfl, by simp [waiting]⟩
    · exact Or.inl ⟨last, earlier, rfl, rfl, fun done => done, Or.inl⟩
  | removes finished reported removed =>
    refine HistoryCounts.of_jobs counts removed.nextId_eq.ge
      (fun kind unchanged => removed.reported.changed unchanged) fun id last found => Or.inl ?_
    rw [removed.jobs_eq] at found
    split_ifs at found
    exact ⟨last, found, rfl, rfl, fun done => done, Or.inl⟩
  | books isKept next => exact kept isKept
  | @finishes _ _ id job _ _ _ front runs ended reported change =>
    refine changed change (by simp [runs]) fun _ => Or.inr ?_
    -- The job still runs, so that its row has not finished and is not recorded.
    rw [← Bool.not_eq_true]
    intro recorded
    have unchanged : ¬ Changed before.transfers (kindOf job) := by
      rintro ⟨rowChange, member, _⟩
      rw [reported] at member
      exact absurd member List.not_mem_nil
    have ended := ((counts.recorded_iff _ unchanged).mp recorded).none_pending id job change.found rfl
    rw [runs] at ended
    cases ended
  | fails front isOwner runs change =>
    exact changed change (by simp [runs]) fun done => absurd done (failedJob_not_completed _ _)
  | disconnects name => exact HistoryCounts.logs counts rfl rfl (List.append_nil _).symm nofun
  | records now => exact counts.processRowChanges sound.indexed now
  | logs recorded counted stored =>
    obtain ⟨entries, isStored, empty⟩ := stored
    exact HistoryCounts.logs counts recorded counted isStored empty
  | settles | drops | connects | marks | reviews | closesReviews | opensPlan | closesPlans | works
  | tells | ends | removesPart => exact counts

end Engine

end Porthmos
