import Porthmos.QueueIndexing

/-!
# What an indexed queue answers

The lookups of the queue go through its indexes.  On an indexed queue each gives
what the jobs alone say.  The changes an operation reports are compared with the
phases the rows were in before and after it.
-/

namespace Porthmos

/-- The row a change is about. -/
def RowChange.kind : RowChange → RowKind
  | .finished kind | .reopened kind | .removed kind => kind

namespace TransferQueue

/-- Whether a row exists and, if so, whether it is finished. -/
def rowPhase (jobs : Jobs) (kind : RowKind) : Option Bool :=
  (leader jobs kind).map fun _ => rowDone jobs kind

/-- The changes that tell of a row going from one phase to another. -/
def phaseChanges (kind : RowKind) : Option Bool → Option Bool → List RowChange
  | some false, some true => [.finished kind]
  | some true, some false => [.reopened kind]
  | some _, none => [.removed kind]
  | _, _ => []

@[simp]
theorem phaseChanges_self (kind : RowKind) (phase : Option Bool) :
    phaseChanges kind phase phase = [] := by
  rcases phase with _ | _ | _ <;> rfl

theorem phaseChanges_some (kind : RowKind) (before after : Bool) :
    phaseChanges kind (some before) (some after) = flipChanges kind before after := by
  cases before <;> cases after <;> rfl

/-- The changes of a list that are about one row. -/
def changesOf (kind : RowKind) (changes : List RowChange) : List RowChange :=
  changes.filter fun change => decide (change.kind = kind)

@[simp]
theorem changesOf_nil (kind : RowKind) : changesOf kind [] = [] := rfl

@[simp]
theorem changesOf_append (kind : RowKind) (first second : List RowChange) :
    changesOf kind (first ++ second) = changesOf kind first ++ changesOf kind second :=
  List.filter_append _ _

theorem changesOf_eq_self {kind : RowKind} {changes : List RowChange}
    (about : ∀ change ∈ changes, change.kind = kind) : changesOf kind changes = changes :=
  List.filter_eq_self.mpr fun change member => decide_eq_true (about change member)

theorem changesOf_eq_nil {kind : RowKind} {changes : List RowChange}
    (about : ∀ change ∈ changes, change.kind ≠ kind) : changesOf kind changes = [] :=
  List.filter_eq_nil_iff.mpr fun change member => by simpa using about change member

theorem kind_of_mem_flipChanges {kind : RowKind} {before after : Bool} {change : RowChange}
    (member : change ∈ flipChanges kind before after) : change.kind = kind := by
  cases before <;> cases after <;> simp [flipChanges] at member <;> rw [member] <;> rfl

/-- The changes between two queues tell exactly how the phases of the rows
differ. -/
def ChangesExact (queue result : TransferQueue) : Prop :=
  ∃ appended, result.changes = queue.changes ++ appended ∧ ∀ kind,
    changesOf kind appended =
      phaseChanges kind (rowPhase queue.jobs kind) (rowPhase result.jobs kind)

/-! ### Rows by kind -/

namespace Indexed

variable {queue : TransferQueue}

theorem row_of_leader (indexed : queue.Indexed) {kind : RowKind} {key : Nat}
    (leads : leader queue.jobs kind = some key) :
    ∃ counters, queue.rows.get? key = some counters ∧ counters.kind = kind ∧
      RowMatches queue.jobs key counters := by
  obtain ⟨counters, row⟩ := indexed.rows.present kind key leads
  have matched := indexed.rows.recounted key counters row
  exact ⟨counters, row, matched.kind_eq leads, matched⟩

theorem leader_single (indexed : queue.Indexed) {id key : Nat}
    (leads : leader queue.jobs (.single id) = some key) : key = id := by
  obtain ⟨first, found, inRow⟩ := kindOf_of_leader leads
  have sameId := (indexed.jobs_id _ _ found).1
  unfold kindOf at inRow
  cases batch : first.batchId with
  | some batchId => simp [batch] at inRow
  | none =>
    simp only [batch, RowKind.single.injEq] at inRow
    omega

theorem rowKey_eq (indexed : queue.Indexed) (kind : RowKind) :
    queue.rowKey kind = leader queue.jobs kind := by
  have keeps {key : Option Nat} (sameKey : leader queue.jobs kind = key) :
      (key.filter fun key => (queue.rows.get? key).any fun counters => counters.kind = kind) =
        leader queue.jobs kind := by
    subst sameKey
    cases leads : leader queue.jobs kind with
    | none => rfl
    | some key =>
      obtain ⟨counters, row, sameKind, _⟩ := indexed.row_of_leader leads
      simp [Option.filter, row, sameKind]
  cases kind with
  | batch batch =>
    refine keeps ?_
    rw [indexed.batchRow_eq]
    rfl
  | scan batch =>
    symm
    change leader queue.jobs (.scan batch) = none
    rw [leader_eq_none_iff]
    intro id member
    obtain ⟨job, _, inRow⟩ := mem_members_iff.mp member
    unfold kindOf at inRow
    cases batchId : job.batchId <;> simp [batchId] at inRow
  | single id =>
    unfold rowKey
    cases leads : leader queue.jobs (.single id) with
    | some key =>
      obtain ⟨counters, row, sameKind, _⟩ := indexed.row_of_leader leads
      have sameKey := indexed.leader_single leads
      subst sameKey
      simp [OrderedMap.contains, row, sameKind, Option.filter]
    | none =>
      cases row : queue.rows.get? id with
      | none => simp [OrderedMap.contains, row, Option.filter]
      | some counters =>
        have otherKind : counters.kind ≠ .single id := by
          intro sameKind
          have rowLeads := (indexed.rows.recounted id counters row).leads
          rw [sameKind, leads] at rowLeads
          cases rowLeads
        simp [OrderedMap.contains, row, otherKind, Option.filter]

theorem finished_eq_rowPhase (indexed : queue.Indexed) (kind : RowKind) :
    ((queue.rowKey kind).bind queue.rows.get?).map RowCounters.finished =
      rowPhase queue.jobs kind := by
  rw [indexed.rowKey_eq, rowPhase]
  cases leads : leader queue.jobs kind with
  | none => rfl
  | some key =>
    obtain ⟨counters, row, sameKind, matched⟩ := indexed.row_of_leader leads
    simp [row, matched.finished_eq, sameKind]

theorem row_isFinished_eq (indexed : queue.Indexed) (kind : RowKind) :
    (queue.row kind).map QueueRow.isFinished = rowPhase queue.jobs kind := by
  rw [← indexed.finished_eq_rowPhase, row, Option.map_map]
  cases row : (queue.rowKey kind).bind queue.rows.get? with
  | none => rfl
  | some counters =>
    obtain ⟨key, _, counted⟩ := Option.bind_eq_some_iff.mp row
    have matched := indexed.rows.recounted key counters counted
    obtain ⟨first, found, inRow⟩ := kindOf_of_leader matched.leads
    simp [RowCounters.isFinished_toRow (matched.counts.total_pos found inRow)]

end Indexed

end TransferQueue

end Porthmos
