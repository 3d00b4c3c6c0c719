import Porthmos.QueueClosing
import Porthmos.QueueRows

/-!
# Removing jobs

The last two loops of `remove_jobs` report the rows that finished and forget the
labels of the batches that emptied.  With the first two loops they give the
specification of `remove_jobs`.
-/

namespace Porthmos

namespace TransferQueue

/-! ### Reporting -/

/-- What the third loop reports about one row. -/
def noteChanges (jobs : Jobs) (note : RowKind × Bool) : List RowChange :=
  match rowPhase jobs note.1 with
  | some now => flipChanges note.1 note.2 now
  | none => []

theorem kind_of_mem_noteChanges {jobs : Jobs} {note : RowKind × Bool} {change : RowChange}
    (member : change ∈ noteChanges jobs note) : change.kind = note.1 := by
  unfold noteChanges at member
  cases phase : rowPhase jobs note.1 with
  | none => simp [phase] at member
  | some now =>
    simp only [phase] at member
    exact kind_of_mem_flipChanges member

theorem reportRow_eq {queue : TransferQueue} (indexed : queue.Indexed) (note : RowKind × Bool) :
    queue.reportRow note.1 note.2 =
      { queue with changes := queue.changes ++ noteChanges queue.jobs note } := by
  unfold reportRow noteChanges
  rw [indexed.finished_eq_rowPhase]
  rcases rowPhase queue.jobs note.1 with _ | _ | _ <;> cases note.2 <;>
    simp [flipChanges, pushChange]

theorem foldl_reportRow {queue : TransferQueue} (indexed : queue.Indexed)
    (notes : List (RowKind × Bool)) :
    notes.foldl (fun queue note => queue.reportRow note.1 note.2) queue =
      { queue with changes := queue.changes ++ notes.flatMap (noteChanges queue.jobs) } := by
  induction notes generalizing queue with
  | nil => simp
  | cons note rest ih =>
    rw [List.foldl_cons, reportRow_eq indexed, ih]
    · simp
    · exact indexed.of_fields rfl rfl rfl rfl rfl rfl rfl rfl rfl

/-- Of reports about different rows, those about one row. -/
theorem changesOf_flatMap {entry : Type*} (row : entry → RowKind)
    (emit : entry → List RowChange) (about : ∀ note, ∀ change ∈ emit note, change.kind = row note)
    (notes : List entry) (nodup : (notes.map row).Nodup) (kind : RowKind) :
    (kind ∉ notes.map row → changesOf kind (notes.flatMap emit) = []) ∧
      ∀ note ∈ notes, row note = kind → changesOf kind (notes.flatMap emit) = emit note := by
  have absent {notes : List entry} (unnoted : kind ∉ notes.map row) :
      changesOf kind (notes.flatMap emit) = [] := by
    refine changesOf_eq_nil fun change member => ?_
    obtain ⟨note, noted, emitted⟩ := List.mem_flatMap.mp member
    rw [about note change emitted]
    exact fun same => unnoted (List.mem_map.mpr ⟨note, noted, same⟩)
  refine ⟨absent, ?_⟩
  induction notes with
  | nil => simp
  | cons first rest ih =>
    intro note member same
    rw [List.map_cons, List.nodup_cons] at nodup
    rw [List.flatMap_cons, changesOf_append]
    rcases List.mem_cons.mp member with rfl | later
    · rw [absent (same ▸ nodup.1), List.append_nil]
      exact changesOf_eq_self fun change emitted => (about _ _ emitted).trans same
    · have otherRow : row first ≠ kind := by
        intro firstRow
        exact nodup.1 (List.mem_map.mpr ⟨note, later, same.trans firstRow.symm⟩)
      have none : changesOf kind (emit first) = [] :=
        changesOf_eq_nil fun change emitted => by rwa [about _ _ emitted]
      rw [none, List.nil_append, ih nodup.2 note later same]

/-! ### Forgetting labels -/

/-- The last loop touches the labels of batches without a row. -/
theorem foldl_forgetBatchIfEmpty (queue : TransferQueue) (batches : List Nat) :
    ∃ labels flags, batches.foldl forgetBatchIfEmpty queue =
        { queue with batchLabels := labels, unkeptTimesFlagged := flags } ∧
      ∀ batch, labels batch = queue.batchLabels batch ∨
        (labels batch = none ∧ queue.batchRow batch = none) := by
  induction batches generalizing queue with
  | nil => exact ⟨queue.batchLabels, queue.unkeptTimesFlagged, rfl, fun _ => Or.inl rfl⟩
  | cons first rest ih =>
    rw [List.foldl_cons]
    by_cases empty : (queue.batchRow first).isNone
    · obtain ⟨labels, flags, result, kept⟩ := ih (queue.forgetBatchIfEmpty first)
      refine ⟨labels, flags, ?_, fun batch => ?_⟩
      · rw [result, forgetBatchIfEmpty, if_pos empty]
      · rw [forgetBatchIfEmpty, if_pos empty] at kept
        rcases kept batch with same | ⟨forgotten, noRow⟩
        · by_cases isFirst : batch = first
          · subst isFirst
            exact Or.inr ⟨same.trans (Function.update_self _ _ _),
              Option.isNone_iff_eq_none.mp empty⟩
          · exact Or.inl (same.trans (Function.update_of_ne isFirst _ _))
        · exact Or.inr ⟨forgotten, noRow⟩
    · rw [forgetBatchIfEmpty, if_neg empty]
      exact ih queue

theorem Indexed.labelled_of_forgotten {queue : TransferQueue} (indexed : queue.Indexed)
    (labelled : queue.Labelled) {labels : Nat → Option String}
    (kept : ∀ batch, labels batch = queue.batchLabels batch ∨
      (labels batch = none ∧ queue.batchRow batch = none))
    {key : Nat} {counters : RowCounters} {first : TransferJob}
    (row : queue.rows.get? key = some counters) (found : queue.jobs.get? key = some first) :
    counters.label = expectedLabel labels first := by
  rw [labelled key counters first row found]
  unfold expectedLabel
  cases inBatch : first.batchId with
  | none => rfl
  | some batch =>
    rcases kept batch with same | ⟨_, noRow⟩
    · simp [same]
    · obtain ⟨leading, _, _, _, leads, _⟩ := indexed.row_of_job found
      rw [indexed.batchRow_eq, recountBatchRow] at noRow
      simp [kindOf, inBatch, noRow] at leads

/-! ### The whole of `remove_jobs` -/

/-- Everything `remove_jobs` does to the queue. -/
structure Removed (queue result : TransferQueue) (ids : List Nat) : Prop where
  indexed : result.Indexed
  jobs_eq : ∀ id, result.jobs.get? id = if id ∈ ids then none else queue.jobs.get? id
  nextId_eq : result.nextId = queue.nextId
  nextBatchId_eq : result.nextBatchId = queue.nextBatchId
  batchLabels_eq : ∀ batch, result.batchLabels batch = queue.batchLabels batch ∨
    (result.batchLabels batch = none ∧ result.batchRow batch = none)
  labelled : queue.Labelled → result.Labelled
  changes : ChangesExact queue result

/-- Once every row was visited the queue is indexed again. -/
theorem Closing.indexed {start : TransferQueue} {taken closed : Removal}
    (closing : Closing start taken [] closed) (taking : Taking start taken)
    (indexed : start.Indexed) : closed.queue.Indexed := by
  have visited (kind : RowKind) : keyWhile start.jobs taken.queue.jobs [] kind =
      leader taken.queue.jobs kind := keyWhile_nil taking.jobs_sub kind
  constructor
  · intro id job found
    rw [closing.jobs_eq] at found
    rw [closing.nextId_eq]
    exact indexed.jobs_id id job (taking.jobs_sub _ _ found)
  · rw [closing.jobs_eq]
    exact closing.sets
  · funext id
    rw [closing.rowOf_eq, closing.jobs_eq, recountRowOf]
    simp only [visited]
  · funext batch
    rw [closing.batchRow_eq, visited, closing.jobs_eq, recountBatchRow]
  · constructor
    · intro kind key leads
      rw [closing.jobs_eq, ← visited] at leads
      exact closing.present kind key leads
    · intro key counters row
      rw [closing.jobs_eq]
      exact closing.settled key counters row (by simp)

/-- The changes of the second and third loop together. -/
theorem Closing.changesOf_eq {start : TransferQueue} {taken closed : Removal}
    (closing : Closing start taken [] closed) (taking : Taking start taken)
    (indexed : start.Indexed) {notes : List (RowKind × Bool)}
    (walked : notes.Perm closed.wasFinished) {dropped : List RowKind} (droppedNodup : dropped.Nodup)
    (droppedIff : ∀ kind, kind ∈ dropped ↔ (leader start.jobs kind).isSome = true ∧
      keyWhile start.jobs taken.queue.jobs [] kind = none) (kind : RowKind) :
    changesOf kind (dropped.map RowChange.removed ++ notes.flatMap (noteChanges taken.queue.jobs)) =
      phaseChanges kind (rowPhase start.jobs kind) (rowPhase taken.queue.jobs kind) := by
  have visited := keyWhile_nil taking.jobs_sub kind
  have notesNodup : (notes.map Prod.fst).Nodup := (walked.map _).nodup_iff.mpr closing.noted_nodup
  have noted (done : Bool) : (kind, done) ∈ notes ↔
      (kind, done) ∈ taken.wasFinished ∧ (leader taken.queue.jobs kind).isSome = true := by
    rw [walked.mem_iff, closing.noted_iff, visited]
  obtain ⟨unnotedNone, notedSome⟩ := changesOf_flatMap Prod.fst (noteChanges taken.queue.jobs)
    (fun note change member => kind_of_mem_noteChanges member) notes notesNodup kind
  obtain ⟨undroppedNone, droppedSome⟩ := changesOf_flatMap id
    (fun kind => [RowChange.removed kind]) (by simp [RowChange.kind]) dropped
    (by rwa [List.map_id]) kind
  have droppedKind := droppedIff kind
  rw [List.map_id] at undroppedNone
  rw [visited] at droppedKind
  rw [changesOf_append, List.map_eq_flatMap]
  have unnoted (noRow : leader taken.queue.jobs kind = none) :
      changesOf kind (notes.flatMap (noteChanges taken.queue.jobs)) = [] := by
    refine unnotedNone fun member => ?_
    obtain ⟨⟨_, done⟩, inNotes, rfl⟩ := List.mem_map.mp member
    have still := ((noted done).mp inNotes).2
    rw [noRow] at still
    cases still
  unfold rowPhase
  cases leads : leader start.jobs kind with
  | none =>
    have noRow : leader taken.queue.jobs kind = none := by
      rw [← visited, keyWhile, leads, Option.bind_none]
    rw [undroppedNone (by rw [droppedKind, leads]; simp), unnoted noRow, noRow]
    rfl
  | some key =>
    cases newLeads : leader taken.queue.jobs kind with
    | none =>
      have isDropped : kind ∈ dropped := by
        rw [droppedKind, leads]
        exact ⟨rfl, newLeads⟩
      rw [droppedSome kind isDropped rfl, unnoted newLeads]
      simp [phaseChanges]
    | some newKey =>
      have notDropped : kind ∉ dropped := by
        rw [droppedKind, newLeads]
        simp
      rw [undroppedNone notDropped, List.nil_append, Option.map_some, Option.map_some,
        phaseChanges_some]
      obtain ⟨before, row, sameKind, _⟩ := indexed.row_of_leader leads
      cases touched : taken.removedByRow.get? key with
      | some ids =>
        have inNotes : (kind, rowDone start.jobs kind) ∈ notes := by
          rw [noted, newLeads, taking.noted_iff]
          exact ⟨⟨key, before, row, sameKind, by rw [touched]; rfl, rfl⟩, rfl⟩
        rw [notedSome _ inNotes rfl, noteChanges, rowPhase, newLeads]
        rfl
      | none =>
        have same := taking.untouched key before row touched
        rw [sameKind] at same
        have sameDone : rowDone taken.queue.jobs kind = rowDone start.jobs kind := by
          rw [rowDone, rowDone, same, same]
        rw [sameDone, flipChanges_self]
        refine unnotedNone fun member => ?_
        obtain ⟨⟨_, done⟩, inNotes, sameNote⟩ := List.mem_map.mp member
        subst sameNote
        obtain ⟨other, otherRow, otherFound, otherKind, otherTouched, _⟩ :=
          (taking.noted_iff _ _).mp ((noted done).mp inNotes).1
        have otherLeads := (indexed.rows.recounted other otherRow otherFound).leads
        rw [otherKind, leads, Option.some.injEq] at otherLeads
        rw [← otherLeads, touched] at otherTouched
        cases otherTouched

/-- The specification of `remove_jobs`. -/
theorem Indexed.removeJobs {queue : TransferQueue} (indexed : queue.Indexed) (order : HashOrder)
    (ids : List Nat) : Removed queue (removeJobs order queue ids) ids := by
  obtain ⟨taking, takenJobs⟩ := Taking.foldl_takeJob indexed ids (taking_start indexed)
  set taken := ids.foldl Removal.takeJob (Removal.start queue) with takenIs
  have closing := Closing.foldl_closeRow taking indexed taken.removedByRow.entries
    taken.removedByRow.nodup_keys (fun entry member => OrderedMap.mem_entries_iff.mp member)
    (closing_start taking indexed)
  set closed := taken.removedByRow.entries.foldl
    (fun removal entry => removal.closeRow entry.1 entry.2) taken with closedIs
  have closedIndexed := closing.indexed taking indexed
  have reported := foldl_reportRow closedIndexed (order.rows closed.wasFinished)
  obtain ⟨dropped, droppedNodup, changes, droppedIff⟩ := closing.changes_eq
  obtain ⟨labels, flags, forgotten, kept⟩ := foldl_forgetBatchIfEmpty
    ((order.rows closed.wasFinished).foldl (fun queue entry => queue.reportRow entry.1 entry.2)
      closed.queue) (order.batches closed.touchedBatches)
  rw [reported] at forgotten kept
  have result : TransferQueue.removeJobs order queue ids = { closed.queue with
      batchLabels := labels
      unkeptTimesFlagged := flags
      changes := closed.queue.changes ++
        (order.rows closed.wasFinished).flatMap (noteChanges closed.queue.jobs) } := by
    unfold TransferQueue.removeJobs
    simp only [← takenIs, ← closedIs, reported, forgotten]
  rw [result]
  constructor
  · exact closedIndexed.of_fields rfl rfl rfl rfl rfl rfl rfl rfl rfl
  · intro id
    exact (congrArg (OrderedMap.get? · id) closing.jobs_eq).trans (takenJobs id)
  · exact closing.nextId_eq
  · exact closing.nextBatchId_eq
  · intro batch
    rcases kept batch with same | gone
    · exact Or.inl (same.trans (congrFun closing.batchLabels_eq batch))
    · exact Or.inr gone
  · intro labelled key counters first row found
    refine closedIndexed.labelled_of_forgotten ?_ kept row found
    intro key counters first row found
    rw [closing.jobs_eq] at found
    rw [closing.batchLabels_eq]
    exact closing.labelled labelled key counters first row (taking.jobs_sub _ _ found)
  · refine ⟨dropped.map RowChange.removed ++
      (order.rows closed.wasFinished).flatMap (noteChanges closed.queue.jobs), ?_, fun kind => ?_⟩
    · simp [changes]
    · simp only [closing.jobs_eq]
      exact closing.changesOf_eq taking indexed (order.rows_perm _) droppedNodup droppedIff kind

end TransferQueue

end Porthmos
