import Porthmos.LazyWriterSteps

/-!
# No accepted write is lost

A write that was accepted stands in the map, in a batch or in a drain until it is executed, unless
a later one for its path takes its place.  When the writer is closed and its task has
ended, only the executed ones are left.
-/

namespace Porthmos

namespace Party

/-- The jobs whose outcome is still to come, as far as accepted ones depend on them. -/
def held : Party → List LazyEntry
  | direct entry true => [entry]
  | writing _ left | batch left _ | awaiting _ (some none) left _ => left
  | awaiting entry _ left _ => entry :: left
  | _ => []

/-- The job of a `write_lazy` that waits for the state. -/
def issued? : Party → Option LazyEntry
  | issued entry => some entry
  | _ => none

/-- A task that has something left to write or a failure to report. -/
def isBusy : Party → Bool
  | awaiting _ outcome left _ => decide (outcome ≠ some none ∨ left ≠ [])
  | _ => false

/-- The job that `write_lazy` has accepted. -/
def accepted : Party → Option LazyEntry
  | starting entry | wrote entry none => some entry
  | _ => none

/-- A call of `close` that has taken the jobs that were pending. -/
def hasClosed : Party → Bool
  | writing .close _ | drained .close => true
  | _ => false

end Party

namespace Writer

variable {writer after : Writer} {id : Nat} {party : Party} {path : String} {version : Nat}

/-- A job for the path with the version or a later one was executed, and its failure, if any, was
reported: through `on_failure`, or to the caller that executed it. -/
def Settled (writer : Writer) (path : String) (version : Nat) : Prop :=
  ∃ entry failure, (entry, failure) ∈ writer.executed ∧ entry.1 = path ∧
    version ≤ entry.2.version ∧ ∀ message, failure = some message →
      ⟨entry.1, message, entry.2.tag⟩ ∈ writer.failures ∨
        ∃ id, writer.parties.get? id = some (.wrote entry (some message))

/-- A call of `close` has returned, and no task is left. -/
def Over (writer : Writer) : Prop :=
  .drained .close ∈ writer.parties.values ∧ ∀ party ∈ writer.parties.values, party.isTask = false

/-- The step of this party is the last one of `close` or of the task. -/
def Ends (writer : Writer) (id : Nat) : Prop :=
  (∀ entry ∈ writer.parties.entries, entry.1 ≠ id → entry.2.isTask = false) ∧
    (writer.parties.get? id = some (.writing .close []) ∨
      writer.parties.get? id = some (.writing .mark []) ∧ .drained .close ∈ writer.parties.values)

instance (writer : Writer) : Decidable writer.Over := inferInstanceAs (Decidable (_ ∧ _))

instance (writer : Writer) (id : Nat) : Decidable (writer.Ends id) :=
  inferInstanceAs (Decidable (_ ∧ _))

/-- A write does not come after a later one for its path that is still pending, an aborted task has
nothing left to write or to report, and when both `close` and the task have ended nobody
else is still writing what was pending. -/
def Fits (writer : Writer) : WriterStep → Prop
  | .advance id _ =>
    (∀ party ∈ writer.parties.get? id, ∀ entry ∈ party.issued?,
      ∀ job ∈ writer.pending.get? entry.1, job.version ≤ entry.2.version) ∧
    (writer.Ends id → ∀ party ∈ writer.parties.values, party.held = [])
  | .abort id => ∀ party ∈ writer.parties.get? id, party.isBusy = false
  | _ => True

instance (writer : Writer) : (step : WriterStep) → Decidable (writer.Fits step)
  | .advance _ _ => inferInstanceAs (Decidable (_ ∧ _))
  | .abort id => inferInstanceAs (Decidable (∀ party ∈ writer.parties.get? id, party.isBusy = false))
  | .writeLazy _ _ _ | .flush | .close | .writePendingNow | .finishBlocking _ _
  | .finishDetached _ _ => isTrue trivial

def AllFit (writer : Writer) : List WriterStep → Prop
  | [] => True
  | step :: rest => writer.Fits step ∧ (writer.next step).AllFit rest

def decideAllFit (writer : Writer) : (steps : List WriterStep) → Decidable (writer.AllFit steps)
  | [] => isTrue trivial
  | step :: rest =>
    have := decideAllFit (writer.next step) rest
    inferInstanceAs (Decidable (_ ∧ _))

instance (writer : Writer) (steps : List WriterStep) : Decidable (writer.AllFit steps) :=
  decideAllFit writer steps

/-! ### Accepted writes -/

/-- Somebody still has to write the path with the version or a later one, or it is settled. -/
inductive Covered (writer : Writer) (path : String) (version : Nat) : Prop
  | settled (settled : writer.Settled path version)
  | pending {job : LazyJob} (found : writer.pending.get? path = some job)
      (later : version ≤ job.version)
  | held {id : Nat} {party : Party} {entry : LazyEntry}
      (found : writer.parties.get? id = some party) (member : entry ∈ party.held)
      (onPath : entry.1 = path) (later : version ≤ entry.2.version)

/-- The calls and tasks are the same, and nothing that was executed or reported is forgotten. -/
structure Keeps (writer middle : Writer) : Prop where
  parties : middle.parties = writer.parties
  executed : writer.executed ⊆ middle.executed
  failures : writer.failures ⊆ middle.failures

theorem Settled.mono (settled : writer.Settled path version)
    (executed : writer.executed ⊆ after.executed) (failures : writer.failures ⊆ after.failures)
    (wrote : ∀ id entry message, writer.parties.get? id = some (.wrote entry (some message)) →
      after.parties.get? id = some (.wrote entry (some message))) : after.Settled path version := by
  obtain ⟨entry, failure, isExecuted, onPath, later, reported⟩ := settled
  refine ⟨entry, failure, executed isExecuted, onPath, later, fun message isFailure => ?_⟩
  rcases reported message isFailure with isReported | ⟨id, isReturned⟩
  · exact Or.inl (failures isReported)
  · exact Or.inr ⟨id, wrote id entry message isReturned⟩

/-- A party goes on: what was pending and what it held must still be covered. -/
theorem Covered.setParty (covered : writer.Covered path version)
    (found : writer.parties.get? id = some party) {middle : Writer} {next : Party}
    (keeps : writer.Keeps middle)
    (unreturned : ∀ entry message, party ≠ .wrote entry (some message))
    (pending : ∀ job, writer.pending.get? path = some job → version ≤ job.version →
      (middle.setParty id next).Covered path version)
    (held : ∀ entry ∈ party.held, entry.1 = path → version ≤ entry.2.version →
      (middle.setParty id next).Covered path version) :
    (middle.setParty id next).Covered path version := by
  have others {other : Nat} {last : Party} (different : other ≠ id)
      (isLast : writer.parties.get? other = some last) :
      (middle.setParty id next).parties.get? other = some last := by
    change (middle.parties.insert id next).get? other = _
    rw [OrderedMap.get?_insert, if_neg different, keeps.parties, isLast]
  cases covered with
  | settled settled =>
    refine .settled (settled.mono keeps.executed keeps.failures fun other entry message isReturned => ?_)
    apply others _ isReturned
    rintro rfl
    rw [found] at isReturned
    exact unreturned entry message (Option.some.inj isReturned)
  | pending isJob later => exact pending _ isJob later
  | @held other last entry isLast member onPath later =>
    by_cases same : other = id
    · subst same
      cases found.symm.trans isLast
      exact held entry member onPath later
    · exact .held (others same isLast) member onPath later

theorem Covered.addParty (covered : writer.Covered path version)
    (fresh : writer.parties.get? writer.nextParty = none) (next : Party) :
    (writer.addParty next).Covered path version := by
  have others {other : Nat} {last : Party} (isLast : writer.parties.get? other = some last) :
      (writer.addParty next).parties.get? other = some last := by
    refine (OrderedMap.get?_insert ..).trans ?_
    rw [if_neg, isLast]
    rintro rfl
    rw [fresh] at isLast
    cases isLast
  cases covered with
  | settled settled =>
    exact .settled (settled.mono (List.Subset.refl _) (List.Subset.refl _) fun _ _ _ => others)
  | pending isJob later => exact .pending isJob later
  | held isLast member onPath later => exact .held (others isLast) member onPath later

theorem get?_setParty_self (writer : Writer) (id : Nat) (next : Party) :
    (writer.setParty id next).parties.get? id = some next :=
  (OrderedMap.get?_insert ..).trans (if_pos rfl)

theorem covered_of_held {middle : Writer} {next : Party} {entry : LazyEntry}
    (member : entry ∈ next.held) (onPath : entry.1 = path) (later : version ≤ entry.2.version) :
    (middle.setParty id next).Covered path version :=
  .held (get?_setParty_self middle id next) member onPath later

theorem held_of_passes {next : Party} (passes : Passes party next) : party.held = [] := by
  cases passes <;> rfl

theorem mem_entries_of_pending {job : LazyJob} (found : writer.pending.get? path = some job) :
    (path, job) ∈ writer.pending.entries := OrderedMap.mem_entries_iff.mpr found

/-- The outcome that a task has got is that of an execution. -/
def Outcomes (writer : Writer) : Prop :=
  ∀ id entry failure left all, writer.parties.get? id = some (.awaiting entry (some failure) left all) →
    (entry, failure) ∈ writer.executed

theorem Covered.acts (covered : writer.Covered path version) (outcomes : writer.Outcomes)
    (found : writer.parties.get? id = some party)
    (fresh : writer.parties.get? writer.nextParty = none)
    (ordered : ∀ entry job, party = .issued entry → writer.pending.get? entry.1 = some job →
      job.version ≤ entry.2.version)
    (acts : Acts writer id party after) : after.Covered path version := by
  cases acts with
  | @queues entry opened next isNext =>
    apply covered.setParty found
    · exact ⟨rfl, List.Subset.refl _, List.Subset.refl _⟩
    · rintro _ _ ⟨⟩
    · intro job isJob later
      by_cases onPath : path = entry.1
      · subst onPath
        exact .pending ((OrderedMap.get?_insert ..).trans (if_pos rfl))
          (later.trans (ordered entry job rfl isJob))
      · exact .pending ((OrderedMap.get?_insert ..).trans ((if_neg onPath).trans isJob)) later
    · rintro _ ⟨⟩
  | @replaces entry =>
    apply covered.setParty found
    · exact ⟨rfl, List.Subset.refl _, List.Subset.refl _⟩
    · rintro _ _ ⟨⟩
    · intro job isJob later
      by_cases onPath : path = entry.1
      · subst onPath
        have held : entry ∈ (Party.direct entry (writer.pending.contains entry.1)).held := by
          rw [OrderedMap.contains, isJob]
          exact List.mem_singleton_self entry
        exact covered_of_held held rfl (later.trans (ordered entry job rfl isJob))
      · have stays : (writer.pending.erase entry.1).get? path = some job := by
          rw [OrderedMap.get?_erase, if_neg onPath, isJob]
        exact .pending stays later
    · rintro _ ⟨⟩
  | @spawns entry =>
    have different : writer.nextParty ≠ id := by
      rintro rfl
      rw [fresh] at found
      cases found
    have returned : (writer.setParty id (.wrote entry none)).Covered path version := by
      apply covered.setParty found
      · exact ⟨rfl, List.Subset.refl _, List.Subset.refl _⟩
      · rintro _ _ ⟨⟩
      · exact fun job isJob later => .pending isJob later
      · rintro _ ⟨⟩
    apply returned.addParty
    exact (OrderedMap.get?_insert ..).trans ((if_neg different).trans fresh)
  | @writes entry replaced failure =>
    apply covered.setParty found
    · exact ⟨rfl, List.subset_append_left _ _, List.Subset.refl _⟩
    · rintro _ _ ⟨⟩
    · exact fun job isJob later => .pending isJob later
    · intro held member onPath later
      have same : held = entry := by
        cases replaced with
        | true => exact List.mem_singleton.mp member
        | false => cases member
      subst same
      refine .settled ⟨held, failure, List.mem_append_right _ (List.mem_singleton_self _), onPath,
        later, fun message isFailure => Or.inr ⟨id, ?_⟩⟩
      rw [get?_setParty_self, isFailure]
  | @passes party next running flushing passes =>
    apply covered.setParty found
    · exact ⟨rfl, List.Subset.refl _, List.Subset.refl _⟩
    · rintro entry message rfl
      cases passes
    · exact fun job isJob later => .pending isJob later
    · rw [held_of_passes passes]
      rintro _ ⟨⟩
  | closes =>
    apply covered.setParty found
    · exact ⟨rfl, List.Subset.refl _, List.Subset.refl _⟩
    · rintro _ _ ⟨⟩
    · exact fun job isJob later => .pending isJob later
    · rintro _ ⟨⟩
  | takes =>
    apply covered.setParty found
    · exact ⟨rfl, List.Subset.refl _, List.Subset.refl _⟩
    · rintro _ _ ⟨⟩
    · exact fun job isJob later => covered_of_held (mem_entries_of_pending isJob) rfl later
    · rintro _ ⟨⟩
  | @drains drain left entry member failure =>
    apply covered.setParty found
    · exact ⟨rfl, List.subset_append_left _ _, List.subset_append_left _ _⟩
    · rintro _ _ ⟨⟩
    · exact fun job isJob later => .pending isJob later
    · intro held isHeld onPath later
      by_cases same : held = entry
      · subst same
        refine .settled ⟨held, failure, List.mem_append_right _ (List.mem_singleton_self _), onPath,
          later, fun message isFailure => Or.inl (List.mem_append_right _ ?_)⟩
        rw [isFailure]
        exact List.mem_singleton_self _
      · exact covered_of_held ((List.mem_erase_of_ne same).mpr isHeld) onPath later
  | finishes =>
    apply covered.setParty found
    · exact ⟨rfl, List.Subset.refl _, List.Subset.refl _⟩
    · rintro _ _ ⟨⟩
    · exact fun job isJob later => .pending isJob later
    · rintro _ ⟨⟩
  | takesDue due =>
    apply covered.setParty found
    · exact ⟨rfl, List.Subset.refl _, List.Subset.refl _⟩
    · rintro _ _ ⟨⟩
    · intro job isJob later
      by_cases isDue : path ∈ due
      · exact covered_of_held (List.mem_filter.mpr ⟨mem_entries_of_pending isJob, decide_eq_true isDue⟩)
          rfl later
      · have stays : (writer.pending.filterMap fun path job =>
            if path ∈ due then none else some job).get? path = some job := by
          rw [OrderedMap.get?_filterMap, isJob, Option.bind_some, if_neg isDue]
        exact .pending stays later
    · rintro _ ⟨⟩
  | takesAll =>
    apply covered.setParty found
    · exact ⟨rfl, List.Subset.refl _, List.Subset.refl _⟩
    · rintro _ _ ⟨⟩
    · exact fun job isJob later => covered_of_held (mem_entries_of_pending isJob) rfl later
    · rintro _ ⟨⟩
  | @picks left all entry member =>
    apply covered.setParty found
    · exact ⟨rfl, List.Subset.refl _, List.Subset.refl _⟩
    · rintro _ _ ⟨⟩
    · exact fun job isJob later => .pending isJob later
    · intro held isHeld onPath later
      exact covered_of_held ((List.perm_cons_erase member).mem_iff.mp isHeld) onPath later
  | @resumes entry failure left all =>
    have isExecuted := outcomes id entry failure left all found
    apply covered.setParty found
    · exact ⟨rfl, List.Subset.refl _, List.subset_append_left _ _⟩
    · rintro _ _ ⟨⟩
    · exact fun job isJob later => .pending isJob later
    · intro held isHeld onPath later
      cases failure with
      | none => exact covered_of_held isHeld onPath later
      | some message =>
        rcases List.mem_cons.mp isHeld with rfl | isLeft
        · refine .settled ⟨held, some message, isExecuted, onPath, later, ?_⟩
          rintro _ ⟨⟩
          exact Or.inl (List.mem_append_right _ (List.mem_singleton_self _))
        · exact covered_of_held isLeft onPath later

theorem Covered.next (covered : writer.Covered path version) (once : writer.Once)
    (outcomes : writer.Outcomes) {step : WriterStep} (fits : writer.Fits step) :
    (writer.next step).Covered path version := by
  cases step with
  | writeLazy path mode tag =>
    cases covered.addParty once.fresh (.issued (path, ⟨mode, tag, writer.nextVersion⟩)) with
    | settled settled => exact .settled settled
    | pending isJob later => exact .pending isJob later
    | held isLast member onPath later => exact .held isLast member onPath later
  | flush => exact covered.addParty once.fresh _
  | close => exact covered.addParty once.fresh _
  | writePendingNow => exact covered.addParty once.fresh _
  | advance id choice =>
    change (writer.advance id choice).Covered path version
    rcases advance_cases writer id choice with same | ⟨party, found, acts⟩
    · rw [same]
      exact covered
    · exact covered.acts outcomes found once.fresh (fun entry job isParty isJob =>
        fits.1 party found entry (isParty ▸ rfl) job isJob) acts
  | finishBlocking id failure =>
    change (writer.finishBlocking id failure).Covered path version
    rcases finishBlocking_cases writer id failure with same | ⟨entry, left, all, found, same⟩
    · rw [same]
      exact covered
    · rw [same]
      apply covered.setParty found
      · exact ⟨rfl, List.subset_append_left _ _, List.Subset.refl _⟩
      · exact nofun
      · exact fun job isJob later => .pending isJob later
      · intro held isHeld onPath later
        cases failure with
        | some message => exact covered_of_held isHeld onPath later
        | none =>
          rcases List.mem_cons.mp isHeld with rfl | isLeft
          · exact .settled ⟨held, none, List.mem_append_right _ (List.mem_singleton_self _), onPath,
              later, nofun⟩
          · exact covered_of_held isLeft onPath later
  | finishDetached entry failure =>
    change (writer.finishDetached entry failure).Covered path version
    unfold finishDetached
    split_ifs
    · cases covered with
      | settled settled =>
        exact .settled (settled.mono (List.subset_append_left _ _) (List.Subset.refl _)
          fun _ _ _ isReturned => isReturned)
      | pending isJob later => exact .pending isJob later
      | held isLast member onPath later => exact .held isLast member onPath later
    · exact covered
  | abort id =>
    change (writer.abort id).Covered path version
    rcases abort_cases writer id with same | ⟨party, found, ⟨same, waits⟩ | ⟨entry, outcome, left, all, rfl,
      same⟩⟩
    · rw [same]
      exact covered
    · rw [same]
      apply covered.setParty found
      · exact ⟨rfl, List.Subset.refl _, List.Subset.refl _⟩
      · rintro entry message rfl
        rcases waits with waits | waits <;> cases waits
      · exact fun job isJob later => .pending isJob later
      · rcases waits with rfl | rfl <;> exact nofun
    · rw [same]
      have idle := fits _ found
      rw [Party.isBusy, decide_eq_false_iff_not, not_or, not_not, not_not] at idle
      obtain ⟨rfl, rfl⟩ := idle
      apply covered.setParty found
      · exact ⟨rfl, List.Subset.refl _, List.Subset.refl _⟩
      · exact nofun
      · exact fun job isJob later => .pending isJob later
      · exact nofun

/-! ### What a step does to the other parties -/

theorem Outcomes.of_setParty (outcomes : writer.Outcomes) {middle : Writer} {next : Party}
    (keeps : writer.Keeps middle)
    (isExecuted : ∀ entry failure left all, next = .awaiting entry (some failure) left all →
      (entry, failure) ∈ middle.executed) : (middle.setParty id next).Outcomes := by
  intro other entry failure left all isLast
  rcases OrderedMap.get?_insert_cases isLast with ⟨_, same⟩ | ⟨_, earlier⟩
  · exact isExecuted entry failure left all same.symm
  · exact keeps.executed (outcomes other entry failure left all (keeps.parties ▸ earlier))

theorem Outcomes.addParty (outcomes : writer.Outcomes) {next : Party}
    (new : ∀ entry failure left all, next ≠ .awaiting entry failure left all) :
    (writer.addParty next).Outcomes := by
  intro other entry failure left all isLast
  rcases OrderedMap.get?_insert_cases isLast with ⟨_, same⟩ | ⟨_, earlier⟩
  · exact absurd same.symm (new entry (some failure) left all)
  · exact outcomes other entry failure left all earlier

theorem passes_ne_awaiting {next : Party} (passes : Passes party next) (entry : LazyEntry)
    (outcome : Option (Option String)) (left : List LazyEntry) (all : Option (Bool × List Nat)) :
    next ≠ .awaiting entry outcome left all := by
  rintro rfl
  cases passes with
  | flush isNext | answer isNext | wake isNext | finish isNext =>
    rcases isNext with isNext | isNext <;> cases isNext
  | loop isNext => rcases isNext with isNext | ⟨_, _, isNext⟩ <;> cases isNext

theorem Outcomes.acts (outcomes : writer.Outcomes) (acts : Acts writer id party after) :
    after.Outcomes := by
  have kept : writer.Keeps writer := ⟨rfl, List.Subset.refl _, List.Subset.refl _⟩
  cases acts with
  | queues opened isNext =>
    apply outcomes.of_setParty ⟨rfl, List.Subset.refl _, List.Subset.refl _⟩
    rcases isNext with rfl | rfl <;> exact nofun
  | @spawns entry =>
    have returned : (writer.setParty id (.wrote entry none)).Outcomes := outcomes.of_setParty kept nofun
    exact returned.addParty fun _ _ _ _ => nofun
  | passes running flushing passes =>
    apply outcomes.of_setParty ⟨rfl, List.Subset.refl _, List.Subset.refl _⟩
    exact fun entry failure left all isNext =>
      absurd isNext (passes_ne_awaiting passes entry (some failure) left all)
  | writes failure =>
    exact outcomes.of_setParty ⟨rfl, List.subset_append_left _ _, List.Subset.refl _⟩ nofun
  | drains member failure =>
    exact outcomes.of_setParty ⟨rfl, List.subset_append_left _ _, List.subset_append_left _ _⟩ nofun
  | resumes => exact outcomes.of_setParty ⟨rfl, List.Subset.refl _, List.subset_append_left _ _⟩ nofun
  | _ => exact outcomes.of_setParty ⟨rfl, List.Subset.refl _, List.Subset.refl _⟩ nofun

theorem Outcomes.next (outcomes : writer.Outcomes) (step : WriterStep) :
    (writer.next step).Outcomes := by
  cases step with
  | writeLazy path mode tag =>
    have added : (writer.addParty (.issued (path, ⟨mode, tag, writer.nextVersion⟩))).Outcomes :=
      outcomes.addParty fun _ _ _ _ => nofun
    exact added
  | flush => exact outcomes.addParty fun _ _ _ _ => nofun
  | close => exact outcomes.addParty fun _ _ _ _ => nofun
  | writePendingNow => exact outcomes.addParty fun _ _ _ _ => nofun
  | advance id choice =>
    change (writer.advance id choice).Outcomes
    rcases advance_cases writer id choice with same | ⟨party, found, acts⟩
    · rw [same]
      exact outcomes
    · exact outcomes.acts acts
  | finishBlocking id failure =>
    change (writer.finishBlocking id failure).Outcomes
    rcases finishBlocking_cases writer id failure with same | ⟨entry, left, all, found, same⟩
    · rw [same]
      exact outcomes
    · rw [same]
      apply outcomes.of_setParty
      · exact ⟨rfl, List.subset_append_left _ _, List.Subset.refl _⟩
      · rintro _ _ _ _ ⟨⟩
        exact List.mem_append_right _ (List.mem_singleton_self _)
  | finishDetached entry failure =>
    change (writer.finishDetached entry failure).Outcomes
    unfold finishDetached
    split_ifs
    · intro other last outcome left all isLast
      exact List.mem_append_left _ (outcomes other last outcome left all isLast)
    · exact outcomes
  | abort id =>
    change (writer.abort id).Outcomes
    rcases abort_cases writer id with same | ⟨party, found, ⟨same, _⟩ | ⟨entry, outcome, left, all, _,
      same⟩⟩ <;> rw [same]
    · exact outcomes
    · exact outcomes.of_setParty ⟨rfl, List.Subset.refl _, List.Subset.refl _⟩ nofun
    · exact outcomes.of_setParty ⟨rfl, List.Subset.refl _, List.Subset.refl _⟩ nofun

/-! ### The end -/

/-- How a party goes on, as far as the end of the writer depends on it. -/
structure Goes (writer : Writer) (party : Party) (after : Writer) (next : Party) : Prop where
  hasClosed : next.hasClosed = true →
    party.hasClosed = true ∨ party = .draining .close ∧ after.pending = .empty
  closing : next = .draining .close → after.closed = true
  isTask : party.isTask = true → next.isTask = true ∨ party = .writing .mark []
  drained : next = .drained .close → party = .writing .close []
  held : writer.pending = .empty → party.held = [] → next.held = []

theorem goes_of_passes {next : Party} (passes : Passes party next) :
    writer.Goes party after next := by
  cases passes with
  | poll => exact ⟨nofun, nofun, fun _ => Or.inl rfl, nofun, fun _ _ => rfl⟩
  | drop => exact ⟨nofun, nofun, fun _ => Or.inl rfl, nofun, fun _ _ => rfl⟩
  | loop isNext =>
    rcases isNext with rfl | ⟨_, _, rfl⟩ <;>
      exact ⟨nofun, nofun, fun _ => Or.inl rfl, nofun, fun _ _ => rfl⟩
  | flush isNext | answer isNext =>
    rcases isNext with rfl | rfl <;> exact ⟨nofun, nofun, nofun, nofun, fun _ _ => rfl⟩
  | wake isNext | finish isNext =>
    rcases isNext with rfl | rfl <;>
      exact ⟨nofun, nofun, fun _ => Or.inl rfl, nofun, fun _ _ => rfl⟩

/-- Only one party goes on; a new one is a task. -/
theorem goes_of_acts (found : writer.parties.get? id = some party)
    (fresh : writer.parties.get? writer.nextParty = none) (acts : Acts writer id party after) :
    ∃ next, writer.Goes party after next ∧ after.parties.get? id = some next ∧
      ∀ other, other ≠ id → after.parties.get? other = writer.parties.get? other ∨
        writer.parties.get? other = none ∧ after.parties.get? other = some .spawned := by
  have others {middle : Writer} {next : Party} (parties : middle.parties = writer.parties.insert id next) :
      middle.parties.get? id = some next ∧
        ∀ other, other ≠ id → middle.parties.get? other = writer.parties.get? other ∨
          writer.parties.get? other = none ∧ middle.parties.get? other = some .spawned := by
    rw [parties]
    constructor
    · exact (OrderedMap.get?_insert ..).trans (if_pos rfl)
    · exact fun other different => Or.inl ((OrderedMap.get?_insert ..).trans (if_neg different))
  cases acts with
  | queues opened isNext =>
    refine ⟨_, ?_, others rfl⟩
    rcases isNext with rfl | rfl <;> exact ⟨nofun, nofun, nofun, nofun, fun _ _ => rfl⟩
  | replaces =>
    refine ⟨_, ?_, others rfl⟩
    refine ⟨nofun, nofun, nofun, nofun, fun empty _ => ?_⟩
    rw [empty]
    rfl
  | @spawns entry =>
    have different : id ≠ writer.nextParty := by
      rintro rfl
      rw [fresh] at found
      cases found
    have returned := others (show (writer.setParty id (.wrote entry none)).parties = _ from rfl)
    refine ⟨.wrote entry none, ⟨nofun, nofun, nofun, nofun, fun _ _ => rfl⟩, ?_, fun other isOther => ?_⟩
    · exact (OrderedMap.get?_insert ..).trans ((if_neg different).trans returned.1)
    · by_cases isNew : other = writer.nextParty
      · subst isNew
        exact Or.inr ⟨fresh, (OrderedMap.get?_insert ..).trans (if_pos rfl)⟩
      · left
        exact (OrderedMap.get?_insert ..).trans ((if_neg isNew).trans
          ((OrderedMap.get?_insert ..).trans (if_neg isOther)))
  | writes failure =>
    refine ⟨_, ?_, others rfl⟩
    exact ⟨nofun, nofun, nofun, nofun, fun _ _ => rfl⟩
  | passes running flushing passes =>
    refine ⟨_, ?_, others rfl⟩
    exact goes_of_passes passes
  | closes =>
    refine ⟨_, ?_, others rfl⟩
    exact ⟨nofun, fun _ => rfl, nofun, nofun, fun _ _ => rfl⟩
  | @takes drain =>
    refine ⟨_, ?_, others rfl⟩
    refine ⟨fun closed => ?_, nofun, fun isTask => ?_, nofun, fun empty _ => ?_⟩
    · cases drain with
      | close => exact Or.inr ⟨rfl, rfl⟩
      | now | mark => cases closed
    · cases drain with
      | mark => exact Or.inl rfl
      | now | close => cases isTask
    · rw [empty]
      rfl
  | @drains drain left entry member failure =>
    refine ⟨_, ?_, others rfl⟩
    refine ⟨fun closed => ?_, nofun, fun isTask => ?_, nofun, fun _ none => ?_⟩
    · cases drain with
      | close => exact Or.inl rfl
      | now | mark => cases closed
    · cases drain with
      | mark => exact Or.inl rfl
      | now | close => cases isTask
    · have none : left = [] := none
      subst none
      cases member
  | @finishes drain =>
    refine ⟨_, ?_, others rfl⟩
    refine ⟨fun closed => ?_, nofun, fun isTask => ?_, fun isDrained => ?_, fun _ _ => rfl⟩
    · cases drain with
      | close => exact Or.inl rfl
      | now | mark => cases closed
    · cases drain with
      | mark => exact Or.inr rfl
      | now | close => cases isTask
    · cases isDrained
      rfl
  | takesDue due =>
    refine ⟨_, ?_, others rfl⟩
    refine ⟨nofun, nofun, fun _ => Or.inl rfl, nofun, fun empty _ => ?_⟩
    rw [empty]
    rfl
  | takesAll =>
    refine ⟨_, ?_, others rfl⟩
    refine ⟨nofun, nofun, fun _ => Or.inl rfl, nofun, fun empty _ => ?_⟩
    rw [empty]
    rfl
  | @picks left all entry member =>
    refine ⟨_, ?_, others rfl⟩
    refine ⟨nofun, nofun, fun _ => Or.inl rfl, nofun, fun _ none => ?_⟩
    have none : left = [] := none
    subst none
    cases member
  | @resumes entry failure left all =>
    refine ⟨_, ?_, others rfl⟩
    refine ⟨nofun, nofun, fun _ => Or.inl rfl, nofun, fun _ none => ?_⟩
    cases failure with
    | none => exact none
    | some message => cases none

theorem closed_of_acts (acts : Acts writer id party after) (closed : writer.closed = true) :
    after.closed = true := by
  cases acts <;> first | exact closed | rfl

theorem pending_of_acts (acts : Acts writer id party after) (closed : writer.closed = true)
    (empty : writer.pending = .empty) : after.pending = .empty := by
  cases acts with
  | queues opened =>
    rw [closed] at opened
    cases opened
  | replaces =>
    change writer.pending.erase _ = .empty
    rw [empty]
    rfl
  | takesDue due =>
    change (writer.pending.filterMap fun path job => if path ∈ due then none else some job) = .empty
    rw [empty]
    rfl
  | takes | takesAll => rfl
  | _ => exact empty

/-- What holds of the writer while its calls and tasks take their steps. -/
structure Lossless (writer : Writer) : Prop where
  once : writer.Once
  outcomes : writer.Outcomes
  covered : ∀ id party entry, writer.parties.get? id = some party → party.accepted = some entry →
    writer.Covered entry.1 entry.2.version
  closing : ∀ id, writer.parties.get? id = some (.draining .close) → writer.closed = true
  closed : ∀ id party, writer.parties.get? id = some party → party.hasClosed = true →
    writer.closed = true ∧ writer.pending = .empty
  ended : writer.Over → ∀ party ∈ writer.parties.values, party.held = []

/-- A write that has just been accepted is pending or executed. -/
theorem accepted_of_acts (acts : Acts writer id party after) {other : Nat} {last : Party}
    {entry : LazyEntry} (isLast : after.parties.get? other = some last)
    (accepted : last.accepted = some entry) :
    (∃ earlier, writer.parties.get? other = some earlier ∧ earlier.accepted = some entry) ∨
      party.accepted = some entry ∨ after.Covered entry.1 entry.2.version := by
  have others {middle : Writer} {next : Party} (parties : middle.parties = writer.parties.insert id next)
      (isLast : middle.parties.get? other = some last)
      (new : next.accepted = some entry → party.accepted = some entry ∨
        after.Covered entry.1 entry.2.version) :
      (∃ earlier, writer.parties.get? other = some earlier ∧ earlier.accepted = some entry) ∨
        party.accepted = some entry ∨ after.Covered entry.1 entry.2.version := by
    rw [parties] at isLast
    rcases OrderedMap.get?_insert_cases isLast with ⟨_, rfl⟩ | ⟨_, earlier⟩
    · exact Or.inr (new accepted)
    · exact Or.inl ⟨last, earlier, accepted⟩
  cases acts with
  | @queues written opened next isNext =>
    apply others rfl isLast
    intro isAccepted
    right
    have same : some written = some entry := by rcases isNext with rfl | rfl <;> exact isAccepted
    cases same
    exact .pending ((OrderedMap.get?_insert ..).trans (if_pos rfl)) (Nat.le_refl _)
  | @spawns written =>
    rcases OrderedMap.get?_insert_cases isLast with ⟨_, rfl⟩ | ⟨_, earlier⟩
    · cases accepted
    · exact others (show (writer.setParty id (.wrote written none)).parties = _ from rfl) earlier Or.inl
  | @writes written replaced failure =>
    apply others rfl isLast
    intro isAccepted
    right
    cases failure with
    | some message => cases isAccepted
    | none =>
      cases isAccepted
      exact .settled ⟨entry, none, List.mem_append_right _ (List.mem_singleton_self _), rfl,
        Nat.le_refl _, nofun⟩
  | passes running flushing passes =>
    apply others rfl isLast
    intro isAccepted
    cases passes with
    | poll | drop => cases isAccepted
    | loop isNext => rcases isNext with rfl | ⟨_, _, rfl⟩ <;> cases isAccepted
    | flush isNext | answer isNext | wake isNext | finish isNext =>
      rcases isNext with rfl | rfl <;> cases isAccepted
  | _ => exact others rfl isLast nofun

namespace Lossless

theorem acts (lossless : writer.Lossless) (found : writer.parties.get? id = some party)
    (fits : ∀ party ∈ writer.parties.get? id, ∀ entry ∈ party.issued?,
      ∀ job ∈ writer.pending.get? entry.1, job.version ≤ entry.2.version)
    (ends : writer.Ends id → ∀ party ∈ writer.parties.values, party.held = [])
    (acts : Acts writer id party after) : after.Lossless := by
  obtain ⟨next, goes, isNext, others⟩ := goes_of_acts found lossless.once.fresh acts
  have cases {other : Nat} {last : Party} (isLast : after.parties.get? other = some last) :
      other = id ∧ last = next ∨ last = .spawned ∨
        other ≠ id ∧ writer.parties.get? other = some last := by
    by_cases same : other = id
    · subst same
      exact Or.inl ⟨rfl, Option.some.inj (isLast.symm.trans isNext)⟩
    · rcases others other same with kept | ⟨_, isNew⟩
      · exact Or.inr (Or.inr ⟨same, kept ▸ isLast⟩)
      · exact Or.inr (Or.inl (Option.some.inj (isLast.symm.trans isNew)))
  have closed (isClosed : writer.closed = true ∧ writer.pending = .empty) :
      after.closed = true ∧ after.pending = .empty :=
    ⟨closed_of_acts acts isClosed.1, pending_of_acts acts isClosed.1 isClosed.2⟩
  have covers {path : String} {version : Nat} (covered : writer.Covered path version) :
      after.Covered path version :=
    covered.acts lossless.outcomes found lossless.once.fresh
      (fun entry job isParty isJob => fits party found entry (isParty ▸ rfl) job isJob) acts
  constructor
  · exact lossless.once.acts found acts
  · exact lossless.outcomes.acts acts
  · intro other last entry isLast accepted
    rcases accepted_of_acts acts isLast accepted with ⟨earlier, isEarlier, before⟩ | before | covered
    · exact covers (lossless.covered other earlier entry isEarlier before)
    · exact covers (lossless.covered id party entry found before)
    · exact covered
  · intro other isLast
    rcases cases isLast with ⟨_, same⟩ | isNew | ⟨_, earlier⟩
    · exact goes.closing same.symm
    · cases isNew
    · exact closed_of_acts acts (lossless.closing other earlier)
  · intro other last isLast hasClosed
    rcases cases isLast with ⟨_, rfl⟩ | rfl | ⟨_, earlier⟩
    · rcases goes.hasClosed hasClosed with before | ⟨rfl, empty⟩
      · exact closed (lossless.closed id party found before)
      · exact ⟨closed_of_acts acts (lossless.closing id found), empty⟩
    · cases hasClosed
    · exact closed (lossless.closed other last earlier hasClosed)
  · rintro ⟨isDrained, noTask⟩
    obtain ⟨last, isDrained⟩ := OrderedMap.mem_values_iff.mp isDrained
    have stays {other : Nat} {party : Party} (different : other ≠ id)
        (isParty : writer.parties.get? other = some party) :
        after.parties.get? other = some party := by
      rcases others other different with kept | ⟨none, _⟩
      · exact kept.trans isParty
      · rw [none] at isParty
        cases isParty
    have noOther (other : Nat × Party) (isParty : other ∈ writer.parties.entries)
        (different : other.1 ≠ id) : other.2.isTask = false :=
      noTask other.2 (OrderedMap.mem_values_iff.mpr
        ⟨other.1, stays different (OrderedMap.mem_entries_iff.mp isParty)⟩)
    have isEmpty : writer.pending = .empty ∧ ∀ party ∈ writer.parties.values, party.held = [] := by
      rcases cases isDrained with ⟨rfl, isLast⟩ | isNew | ⟨_, earlier⟩
      · have isWriting := goes.drained isLast.symm
        subst isWriting
        exact ⟨(lossless.closed _ _ found rfl).2, ends ⟨noOther, Or.inl found⟩⟩
      · cases isNew
      · refine ⟨(lossless.closed last _ earlier rfl).2, ?_⟩
        cases isTask : party.isTask with
        | true =>
          rcases goes.isTask isTask with nextTask | rfl
          · rw [noTask next (OrderedMap.mem_values_iff.mpr ⟨id, isNext⟩)] at nextTask
            cases nextTask
          · exact ends ⟨noOther, Or.inr ⟨found, OrderedMap.mem_values_iff.mpr ⟨last, earlier⟩⟩⟩
        | false =>
          apply lossless.ended
          refine ⟨OrderedMap.mem_values_iff.mpr ⟨last, earlier⟩, fun given isGiven => ?_⟩
          obtain ⟨other, isGiven⟩ := OrderedMap.mem_values_iff.mp isGiven
          by_cases same : other = id
          · subst same
            cases found.symm.trans isGiven
            exact isTask
          · exact noOther (other, given) (OrderedMap.mem_entries_iff.mpr isGiven) same
    intro given isGiven
    obtain ⟨other, isParty⟩ := OrderedMap.mem_values_iff.mp isGiven
    rcases cases isParty with ⟨_, rfl⟩ | rfl | ⟨_, earlier⟩
    · exact goes.held isEmpty.1 (isEmpty.2 _ (OrderedMap.mem_values_iff.mpr ⟨id, found⟩))
    · cases noTask _ isGiven
    · exact isEmpty.2 given (OrderedMap.mem_values_iff.mpr ⟨other, earlier⟩)

/-- A call is made, or a task comes to another place where it is a task, and the map stays. -/
theorem of_insert (lossless : writer.Lossless) (once : after.Once) (outcomes : after.Outcomes)
    (covers : ∀ path version, writer.Covered path version → after.Covered path version)
    (closed : after.closed = writer.closed) (pending : after.pending = writer.pending) {key : Nat}
    {next : Party} (parties : after.parties = writer.parties.insert key next)
    (plain : next.accepted = none ∧ next.hasClosed = false ∧ next ≠ .draining .close)
    (ended : next.isTask = true ∨ writer.parties.get? key = none ∧ next.held = []) :
    after.Lossless := by
  have isNext : after.parties.get? key = some next := by
    rw [parties]
    exact (OrderedMap.get?_insert ..).trans (if_pos rfl)
  have cases {other : Nat} {last : Party} (isLast : after.parties.get? other = some last) :
      last = next ∨ writer.parties.get? other = some last := by
    rw [parties] at isLast
    exact (OrderedMap.get?_insert_cases isLast).imp And.right And.right
  constructor
  · exact once
  · exact outcomes
  · intro other last entry isLast accepted
    rcases cases isLast with rfl | earlier
    · rw [plain.1] at accepted
      cases accepted
    · exact covers _ _ (lossless.covered other last entry earlier accepted)
  · intro other isLast
    rcases cases isLast with same | earlier
    · exact absurd same.symm plain.2.2
    · rw [closed]
      exact lossless.closing other earlier
  · intro other last isLast hasClosed
    rcases cases isLast with rfl | earlier
    · rw [plain.2.1] at hasClosed
      cases hasClosed
    · rw [closed, pending]
      exact lossless.closed other last earlier hasClosed
  · rintro ⟨isDrained, noTask⟩ last isLast
    obtain ⟨drained, isDrained⟩ := OrderedMap.mem_values_iff.mp isDrained
    obtain ⟨other, isLast⟩ := OrderedMap.mem_values_iff.mp isLast
    rcases ended with isTask | ⟨fresh, noJobs⟩
    · rw [noTask next (OrderedMap.mem_values_iff.mpr ⟨key, isNext⟩)] at isTask
      cases isTask
    · rcases cases isLast with rfl | earlier
      · exact noJobs
      · refine lossless.ended ⟨?_, fun given isGiven => ?_⟩ last
          (OrderedMap.mem_values_iff.mpr ⟨other, earlier⟩)
        · rcases cases isDrained with same | before
          · rw [← same] at plain
            cases plain.2.1
          · exact OrderedMap.mem_values_iff.mpr ⟨drained, before⟩
        · obtain ⟨third, isGiven⟩ := OrderedMap.mem_values_iff.mp isGiven
          apply noTask given
          refine OrderedMap.mem_values_iff.mpr ⟨third, ?_⟩
          rw [parties, OrderedMap.get?_insert, if_neg, isGiven]
          rintro rfl
          rw [fresh] at isGiven
          cases isGiven

theorem next (lossless : writer.Lossless) {step : WriterStep} (fits : writer.Fits step) :
    (writer.next step).Lossless := by
  have once := lossless.once.next step
  have outcomes := lossless.outcomes.next step
  have covers (path : String) (version : Nat) (covered : writer.Covered path version) :
      (writer.next step).Covered path version :=
    covered.next lossless.once lossless.outcomes fits
  have fresh := lossless.once.fresh
  cases step with
  | writeLazy path mode tag =>
    exact lossless.of_insert once outcomes covers rfl rfl rfl ⟨rfl, rfl, nofun⟩ (Or.inr ⟨fresh, rfl⟩)
  | flush =>
    exact lossless.of_insert once outcomes covers rfl rfl rfl ⟨rfl, rfl, nofun⟩ (Or.inr ⟨fresh, rfl⟩)
  | close =>
    exact lossless.of_insert once outcomes covers rfl rfl rfl ⟨rfl, rfl, nofun⟩ (Or.inr ⟨fresh, rfl⟩)
  | writePendingNow =>
    exact lossless.of_insert once outcomes covers rfl rfl rfl ⟨rfl, rfl, nofun⟩ (Or.inr ⟨fresh, rfl⟩)
  | advance id choice =>
    change (writer.advance id choice).Lossless
    rcases advance_cases writer id choice with same | ⟨party, found, acts⟩
    · rw [same]
      exact lossless
    · exact lossless.acts found fits.1 fits.2 acts
  | finishBlocking id failure =>
    rcases finishBlocking_cases writer id failure with same | ⟨entry, left, all, found, same⟩
    · rw [show writer.next (.finishBlocking id failure) = _ from same]
      exact lossless
    · rw [show writer.next (.finishBlocking id failure) = _ from same] at once outcomes covers ⊢
      exact lossless.of_insert once outcomes covers rfl rfl rfl ⟨rfl, rfl, nofun⟩ (Or.inl rfl)
  | finishDetached entry failure =>
    have same : (writer.next (.finishDetached entry failure)).parties = writer.parties ∧
        (writer.next (.finishDetached entry failure)).closed = writer.closed ∧
        (writer.next (.finishDetached entry failure)).pending = writer.pending := by
      change (writer.finishDetached entry failure).parties = _ ∧
        (writer.finishDetached entry failure).closed = _ ∧
        (writer.finishDetached entry failure).pending = _
      unfold finishDetached
      split_ifs <;> exact ⟨rfl, rfl, rfl⟩
    obtain ⟨parties, closed, pending⟩ := same
    constructor
    · exact once
    · exact outcomes
    · rw [parties]
      exact fun other last accepted isLast isAccepted =>
        covers _ _ (lossless.covered other last accepted isLast isAccepted)
    · rw [parties, closed]
      exact lossless.closing
    · rw [parties, closed, pending]
      exact lossless.closed
    · unfold Over
      rw [parties]
      exact lossless.ended
  | abort id =>
    rcases abort_cases writer id with same | ⟨party, found, ⟨same, waits⟩ | ⟨entry, outcome, left, all, rfl,
      same⟩⟩
    · rw [show writer.next (.abort id) = _ from same]
      exact lossless
    · rw [show writer.next (.abort id) = _ from same] at once outcomes covers ⊢
      exact lossless.of_insert once outcomes covers rfl rfl rfl ⟨rfl, rfl, nofun⟩ (Or.inl rfl)
    · rw [show writer.next (.abort id) = _ from same] at once outcomes covers ⊢
      exact lossless.of_insert once outcomes covers rfl rfl rfl ⟨rfl, rfl, nofun⟩ (Or.inl rfl)

theorem start : start.Lossless where
  once := .start
  outcomes := by intro id entry failure left all found; cases found
  covered := by intro id party entry found; cases found
  closing := by intro id found; cases found
  closed := by intro id party found; cases found
  ended := by rintro ⟨found, _⟩; cases found

theorem run (lossless : writer.Lossless) {steps : List WriterStep} (fit : writer.AllFit steps) :
    (writer.after steps).Lossless := by
  induction steps generalizing writer with
  | nil => exact lossless
  | cons step rest ih => exact ih (lossless.next fit.1) fit.2

theorem settled (lossless : writer.Lossless) (ended : writer.Over) {entry : LazyEntry}
    (returned : writer.parties.get? id = some (.wrote entry none)) :
    writer.Settled entry.1 entry.2.version := by
  obtain ⟨closer, isClosed⟩ := OrderedMap.mem_values_iff.mp ended.1
  cases lossless.covered id _ entry returned rfl with
  | settled settled => exact settled
  | pending isJob =>
    rw [(lossless.closed closer _ isClosed rfl).2] at isJob
    cases isJob
  | held isParty member =>
    rw [lossless.ended ended _ (OrderedMap.mem_values_iff.mpr ⟨_, isParty⟩)] at member
    cases member

end Lossless

/-- In every run no job is executed twice.  If the steps of the run fit, then whenever `close` has
returned and no task is left, every call of `write_lazy` that has returned without an error is
settled: its job or a later one for its path was executed, and a failure was reported. -/
theorem settled_of_run (steps : List WriterStep) :
    ((start.after steps).executed.map fun execution => execution.1.2.version).Nodup ∧
      (start.AllFit steps → (start.after steps).Over → ∀ id entry,
        (start.after steps).parties.get? id = some (.wrote entry none) →
          (start.after steps).Settled entry.1 entry.2.version) := by
  constructor
  · exact (Once.start.after steps).nodup_executed
  · intro fit ended id entry returned
    exact (Lossless.start.run fit).settled ended returned

/-! ### Runs that lose a write -/

def Loses (steps : List WriterStep) : Prop :=
  (start.after steps).Over ∧ ∃ id entry,
    (start.after steps).parties.get? id = some (.wrote entry none) ∧
      ¬ (start.after steps).Settled entry.1 entry.2.version

/-- Everything is done in a runtime, all intervals are over, and all writes succeed. -/
def step (id : Nat) (path : String) : WriterStep :=
  .advance id ⟨true, some ["a", "b"], path, none⟩

/-- A write for one path, which `close` writes; then the task ends. -/
def plain : List WriterStep :=
  [.writeLazy "a" 384 0, step 0 "", step 0 "", .close, step 2 "", step 2 "", step 2 "a", step 2 ""] ++
    List.replicate 7 (step 1 "")

theorem settled_of_run_plain : (start.after plain).Settled "a" 1 := by
  apply (settled_of_run plain).2 _ _ 0 ("a", ⟨384, 0, 1⟩) rfl
  · decide
  · decide

/-- The task takes the jobs of two paths, and is aborted while the first is written. -/
def interrupted : List WriterStep :=
  [.writeLazy "a" 384 0, .writeLazy "b" 384 0, step 0 "", step 0 "", step 1 "", step 2 "", step 2 "",
    step 2 "", step 2 "", step 2 "a", .finishBlocking 2 none, .abort 2, step 2 "", step 2 "",
    step 2 "", .close, step 3 "", step 3 "", step 3 ""]

/-- Of two writes for one path the one with the later version gets the state first. -/
def outdated : List WriterStep :=
  [.writeLazy "a" 384 0, .writeLazy "a" 384 0, step 1 "", step 1 "", step 0 "", .close, step 3 "",
    step 3 "", step 3 "a", step 3 ""] ++ List.replicate 7 (step 2 "")

/-- `close` finds nothing, since `write_pending_now` has taken the job and not written it yet. -/
def overtaken : List WriterStep :=
  [.writeLazy "a" 384 0, step 0 "", step 0 "", .writePendingNow, step 2 "", .close, step 3 "",
    step 3 "", step 3 ""] ++ List.replicate 7 (step 1 "")

theorem settled_of_run_fails : Loses interrupted ∧ Loses outdated ∧ Loses overtaken := by
  refine ⟨⟨by decide, 1, ("b", ⟨384, 0, 2⟩), by decide, ?_⟩,
    ⟨by decide, 1, ("a", ⟨384, 0, 2⟩), by decide, ?_⟩,
    ⟨by decide, 0, ("a", ⟨384, 0, 1⟩), by decide, ?_⟩⟩
  · rintro ⟨entry, failure, isExecuted, onPath, -⟩
    cases List.mem_singleton.mp (show (entry, failure) ∈ [(("a", ⟨384, 0, 1⟩), none)] from isExecuted)
    exact absurd onPath (by decide)
  · rintro ⟨entry, failure, isExecuted, -, later, -⟩
    cases List.mem_singleton.mp (show (entry, failure) ∈ [(("a", ⟨384, 0, 1⟩), none)] from isExecuted)
    exact absurd later (by decide)
  · rintro ⟨entry, failure, isExecuted, -⟩
    cases (show (entry, failure) ∈ [] from isExecuted)

end Writer

end Porthmos
