import Porthmos.EngineRuns

/-!
# The reviews of the engine

A plan with conflicts that the policy does not answer is put under review, and the screen is
told of it.  A batch is planned once, so that it is told of at most once.
-/

namespace Porthmos

/-- The conflicts that a step tells of: a batch and its plan. -/
def EngineStep.announced (engine : Engine) : EngineStep → Option (Nat × DirectoryPlan)
  | .handle _ =>
    match engine.internal with
    | .transfer (.planReady batchId session _ plan) :: _ =>
      if engine.connected session ∧ conflictIndices plan ≠ [] ∧
          (Engine.automaticAnswers engine.onConflict plan).isNone then some (batchId, plan)
      else none
    | _ => none
  | _ => none

namespace Engine

/-- The batch was planned before. -/
structure Left (engine : Engine) (batchId : Nat) : Prop where
  known : batchId < engine.transfers.nextBatchId
  notPlanned : ¬ engine.Planned batchId

variable {engine before after : Engine} {step : EngineStep} {batchId : Nat} {plan : DirectoryPlan}

/-- What a step tells of was planned until then, and is under review from then on. -/
theorem Steady.announces (steady : engine.Steady)
    (isAnnounced : step.announced engine = some (batchId, plan)) :
    engine.Planned batchId ∧ (step.next engine).Left batchId ∧ ∃ session direction,
      (step.next engine).reviews = engine.reviews ++ [⟨batchId, session, direction, plan⟩] := by
  have sound := steady.sound
  unfold EngineStep.announced at isAnnounced
  split at isAnnounced
  · rename_i moment
    split at isAnnounced
    · rename_i planned session direction found rest front
      split_ifs at isAnnounced with condition
      obtain ⟨live, conflicts, unanswered⟩ := condition
      cases isAnnounced
      have off := sound.owned.message_scanned _ (front ▸ List.mem_cons_self) batchId false rfl
      obtain ⟨isSettled, _⟩ := settle_settled sound front rfl
      obtain ⟨history, same⟩ := publish_eq moment { engine.settle rest batchId with
          reviews := engine.reviews ++ [⟨batchId, session, direction, plan⟩] }
      have isNext : EngineStep.next engine (.handle moment) = { engine.settle rest batchId with
            reviews := engine.reviews ++ [⟨batchId, session, direction, plan⟩]
            transfers := engine.transfers.takeChanges.1
            history := history } := by
        rw [EngineStep.next, front]
        change ((((engine.take rest).planReady moment.order batchId session direction
          plan).processRowChanges moment.now).requestPublish moment) = _
        unfold planReady
        rw [clearPlanning_take off]
        dsimp only
        rw [if_pos (show (engine.settle rest batchId).connected session = true from live)]
        unfold reviewOrApplyPlan
        rw [if_neg conflicts]
        rw [show (engine.settle rest batchId).onConflict = engine.onConflict from rfl,
          Option.isNone_iff_eq_none.mp unanswered]
        exact same
      rw [isNext]
      refine ⟨planned_of_front sound front rfl, ⟨isSettled.known, isSettled.notPlanned⟩, ?_⟩
      exact ⟨session, direction, rfl⟩
    · cases isAnnounced
  · cases isAnnounced

/-! ### What is under review -/

/-- Only what a step tells of is put under review. -/
theorem Steady.reviews_next (steady : engine.Steady) (step : EngineStep) {review : ConflictReview}
    (member : review ∈ (step.next engine).reviews) :
    review ∈ engine.reviews ∨ step.announced engine = some (review.batchId, review.plan) := by
  cases isAnnounced : step.announced engine with
  | some told =>
    obtain ⟨_, _, session, direction, reviews⟩ := steady.announces isAnnounced
    rw [reviews, List.mem_append, List.mem_singleton] at member
    rcases member with earlier | rfl
    · exact Or.inl earlier
    · exact Or.inr rfl
  | none =>
    left
    have fewer := ((steady.moves step).invariant (fun later => later.reviews ⊆ engine.reviews)
      steady.sound (List.Subset.refl _) ?_).2
    · exact fewer member
    · intro label before after allows _ move fewer
      cases move with
      | reviews added live settled noJobs =>
        rcases allows with plain | permits
        · exact absurd plain nofun
        · cases permits with
          | reviews front isLive conflicts unanswered =>
            unfold EngineStep.announced at isAnnounced
            dsimp only at isAnnounced
            rw [front] at isAnnounced
            dsimp only at isAnnounced
            rw [if_pos ⟨isLive, conflicts, by rw [unanswered]; rfl⟩] at isAnnounced
            cases isAnnounced
      | closesReviews sublist => exact fun _ isIn => fewer (sublist.subset isIn)
      | records now =>
        obtain ⟨history, same⟩ := processRowChanges_eq now before
        rw [same]
        exact fewer
      | _ => exact fewer

/-! ### Batches that were planned -/

/-- A new scan gets a new number. -/
theorem Left.move {label : Label} (left : before.Left batchId) (move : Move label before after) :
    after.Left batchId := by
  obtain ⟨known, notPlanned⟩ := left
  cases move with
  | plans scan work scanning kind isNew kept next isOwner isScan isScanning others =>
    constructor
    · exact next.symm ▸ Nat.lt_succ_of_lt known
    · rintro ⟨other, member, same⟩
      rcases List.mem_append.mp member with earlier | new
      · exact notPlanned ⟨other, earlier, same⟩
      · cases List.mem_singleton.mp new
        omega
  | begins waiting live room change => exact ⟨change.nextBatchId_eq.symm ▸ known, notPlanned⟩
  | abandons waiting ended change => exact ⟨change.nextBatchId_eq.symm ▸ known, notPlanned⟩
  | retries interrupted live change => exact ⟨change.nextBatchId_eq.symm ▸ known, notPlanned⟩
  | advances transferred change => exact ⟨change.nextBatchId_eq.symm ▸ known, notPlanned⟩
  | enqueues inBatch waiting untried live settled sameSession entered =>
    exact ⟨entered.nextBatchId_eq.symm ▸ known, notPlanned⟩
  | removes finished reported removed => exact ⟨removed.nextBatchId_eq.symm ▸ known, notPlanned⟩
  | books kept next => exact ⟨next.symm ▸ known, notPlanned⟩
  | finishes front runs ended reported change =>
    exact ⟨change.nextBatchId_eq.symm ▸ known, notPlanned⟩
  | fails front isOwner runs change => exact ⟨change.nextBatchId_eq.symm ▸ known, notPlanned⟩
  | settles front isOwner =>
    refine ⟨known, ?_⟩
    rintro ⟨scan, member, same⟩
    exact notPlanned ⟨scan, (List.mem_filter.mp member).1, same⟩
  | records now =>
    obtain ⟨history, same⟩ := processRowChanges_eq now before
    rw [same]
    exact ⟨known, notPlanned⟩
  | _ => exact ⟨known, notPlanned⟩

theorem Steady.left_next (steady : engine.Steady) (step : EngineStep) (left : engine.Left batchId) :
    (step.next engine).Left batchId :=
  ((steady.moves step).invariant (fun later => later.Left batchId) steady.sound left
    fun _ _ move isLeft => isLeft.move move).2

theorem Steady.not_announced (steady : engine.Steady) (left : engine.Left batchId) :
    step.announced engine ≠ some (batchId, plan) :=
  fun isAnnounced => left.notPlanned (steady.announces isAnnounced).1

end Engine

end Porthmos
