import Porthmos.QueueReference

/-!
# Choosing the jobs to start

`startable_limited` merges the queued jobs of all sessions through a heap and
gives a session up once its cap is reached.  A plain scan of all queued jobs in
the order of their ids chooses the same ones: what the merge leaves out are jobs
of capped sessions, and a cap that is reached stays reached.
-/

namespace Porthmos

namespace TransferQueue

/-- What a plain scan has chosen so far. -/
structure Scan where
  busyDestinations : List Destination
  perSession : Nat → Nat
  startable : List Nat

namespace Scan

/-- Keep a job if a slot is free, its session is below its cap and its
destination is not busy. -/
def offer (sessionLimit : Nat → Option Nat) (freeSlots : Nat) (scan : Scan) (job : TransferJob) :
    Scan :=
  if scan.startable.length < freeSlots ∧
      ¬ capped sessionLimit job.sessionId (scan.perSession job.sessionId) ∧
      job.destination ∉ scan.busyDestinations then
    { busyDestinations := job.destination :: scan.busyDestinations
      perSession := Function.update scan.perSession job.sessionId
        (scan.perSession job.sessionId + 1)
      startable := scan.startable ++ [job.id] }
  else scan

end Scan

/-- The running jobs, in the order of their ids. -/
def runningJobs (jobs : Jobs) : List TransferJob :=
  jobs.values.filter fun job => decide (job.status = .inProgress)

/-- The queued jobs, in the order of their ids. -/
def waitingJobs (jobs : Jobs) : List TransferJob :=
  jobs.values.filter fun job => decide (job.status = .queued)

/-- The jobs a plain scan of all queued jobs chooses. -/
def referenceStartable (jobs : Jobs) (limit : Nat) (sessionLimit : Nat → Option Nat) : List Nat :=
  let running := runningJobs jobs
  let initial : Scan :=
    { busyDestinations := running.map TransferJob.destination
      perSession := fun session => running.countP fun job => decide (job.sessionId = session)
      startable := [] }
  ((waitingJobs jobs).foldl (Scan.offer sessionLimit (limit - running.length)) initial).startable

/-! ### The merge and the scan side by side -/

/-- The ids of the jobs of one session. -/
def idsOf (jobs : List TransferJob) (session : Nat) : List Nat :=
  (jobs.filter fun job => decide (job.sessionId = session)).map TransferJob.id

theorem idsOf_cons (job : TransferJob) (jobs : List TransferJob) (session : Nat) :
    idsOf (job :: jobs) session =
      if job.sessionId = session then job.id :: idsOf jobs session else idsOf jobs session := by
  unfold idsOf
  split_ifs with same
  · rw [List.filter_cons_of_pos (by simpa using same)]
    rfl
  · rw [List.filter_cons_of_neg (by simpa using same)]

theorem mem_idsOf {jobs : List TransferJob} {session id : Nat} :
    id ∈ idsOf jobs session ↔ ∃ job ∈ jobs, job.sessionId = session ∧ job.id = id := by
  simp [idsOf, and_assoc]

/-- The merge holds the next id of every session that has jobs left, unless the
session has reached its cap. -/
structure Covers (sessionLimit : Nat → Option Nat) (merge : Merge) (left : List TransferJob) :
    Prop where
  sorted : merge.heads.Pairwise headBefore
  nodup : (merge.heads.map Prod.snd).Nodup
  head_eq : ∀ id session, (id, session) ∈ merge.heads →
    ∃ rest, merge.iterators session = some rest ∧ idsOf left session = id :: rest
  missing : ∀ session, session ∉ merge.heads.map Prod.snd → idsOf left session ≠ [] →
    capped sessionLimit session (merge.perSession session)

def Merge.scan (merge : Merge) : Scan :=
  ⟨merge.busyDestinations, merge.perSession, merge.startable⟩

theorem headBefore_trans {first second third : Nat × Nat} (before : headBefore first second)
    (after : headBefore second third) : headBefore first third := by
  unfold headBefore at *
  omega

theorem headBefore_total (first second : Nat × Nat) :
    headBefore first second ∨ headBefore second first := by
  unfold headBefore
  omega

theorem sorted_orderedInsert (entry : Nat × Nat) {heads : List (Nat × Nat)}
    (sorted : heads.Pairwise headBefore) :
    (heads.orderedInsert headBefore entry).Pairwise headBefore := by
  have : IsTrans (Nat × Nat) headBefore := ⟨fun _ _ _ => headBefore_trans⟩
  have : Std.Total headBefore := ⟨headBefore_total⟩
  exact List.Pairwise.orderedInsert entry heads sorted

theorem capped_mono {sessionLimit : Nat → Option Nat} {session running more : Nat}
    (full : capped sessionLimit session running) (atLeast : running ≤ more) :
    capped sessionLimit session more := by
  unfold capped at *
  cases limit : sessionLimit session with
  | none => simp [limit] at full
  | some cap =>
    simp only [limit, Option.any_some, decide_eq_true_eq] at full ⊢
    omega

namespace Covers

variable {sessionLimit : Nat → Option Nat} {merge : Merge} {job : TransferJob}
  {left : List TransferJob}

theorem skip (covers : Covers sessionLimit merge (job :: left))
    (given : job.sessionId ∉ merge.heads.map Prod.snd) :
    capped sessionLimit job.sessionId (merge.perSession job.sessionId) ∧
      Covers sessionLimit merge left := by
  have reached := covers.missing job.sessionId given (by simp [idsOf_cons])
  refine ⟨reached, covers.sorted, covers.nodup, fun id session member => ?_, ?_⟩
  · have other : job.sessionId ≠ session := by
      rintro rfl
      exact given (List.mem_map.mpr ⟨_, member, rfl⟩)
    have head := covers.head_eq id session member
    rwa [idsOf_cons, if_neg other] at head
  · intro session absent remaining
    by_cases same : job.sessionId = session
    · exact same ▸ reached
    · refine covers.missing session absent ?_
      rwa [idsOf_cons, if_neg same]

/-- The next job is on top of the heap if its session is in the heap. -/
theorem head_of_mem (covers : Covers sessionLimit merge (job :: left))
    (increasing : (job :: left).Pairwise fun first second => first.id < second.id)
    (member : job.sessionId ∈ merge.heads.map Prod.snd) :
    ∃ heads, merge.heads = (job.id, job.sessionId) :: heads := by
  obtain ⟨⟨id, session⟩, entry, sameSession⟩ := List.mem_map.mp member
  dsimp only at sameSession
  subst sameSession
  obtain ⟨_, _, ids⟩ := covers.head_eq id job.sessionId entry
  rw [idsOf_cons, if_pos rfl, List.cons.injEq] at ids
  obtain ⟨rfl, _⟩ := ids
  cases heads : merge.heads with
  | nil =>
    rw [heads] at entry
    cases entry
  | cons top others =>
    rw [heads] at entry
    rcases List.mem_cons.mp entry with isTop | later
    · exact ⟨others, by rw [isTop]⟩
    · -- The top of the heap comes no later than the job, and no job is earlier.
      have sorted := covers.sorted
      rw [heads, List.pairwise_cons] at sorted
      have before := sorted.1 _ later
      obtain ⟨_, _, topIds⟩ := covers.head_eq top.1 top.2 (by rw [heads]; simp)
      obtain ⟨topJob, topMember, topSession, topId⟩ := mem_idsOf.mp
        (topIds ▸ List.mem_cons_self : top.1 ∈ idsOf (job :: left) top.2)
      rcases List.mem_cons.mp topMember with rfl | isLater
      · have sameTop : top = (topJob.id, topJob.sessionId) := by rw [topId, topSession]
        exact ⟨others, by rw [sameTop]⟩
      · have later := (List.pairwise_cons.mp increasing).1 topJob isLater
        unfold headBefore at before
        omega

theorem popCapped (covers : Covers sessionLimit merge (job :: left))
    {heads : List (Nat × Nat)} (top : merge.heads = (job.id, job.sessionId) :: heads)
    (reached : capped sessionLimit job.sessionId (merge.perSession job.sessionId)) :
    Covers sessionLimit { merge with heads } left := by
  have sorted := covers.sorted
  have nodup := covers.nodup
  rw [top, List.pairwise_cons] at sorted
  rw [top, List.map_cons, List.nodup_cons] at nodup
  refine ⟨sorted.2, nodup.2, fun id session member => ?_, fun session absent remaining => ?_⟩
  · have other : job.sessionId ≠ session := by
      rintro rfl
      exact nodup.1 (List.mem_map.mpr ⟨_, member, rfl⟩)
    have head := covers.head_eq id session (by rw [top]; exact List.mem_cons_of_mem _ member)
    rwa [idsOf_cons, if_neg other] at head
  · by_cases same : job.sessionId = session
    · exact same ▸ reached
    · refine covers.missing session ?_ (by rwa [idsOf_cons, if_neg same])
      rw [top, List.map_cons, List.mem_cons, not_or]
      exact ⟨fun equal => same equal.symm, absent⟩

/-- Popping a job and pushing the next one of its session. -/
theorem popAdvance (covers : Covers sessionLimit merge (job :: left))
    {heads : List (Nat × Nat)} (top : merge.heads = (job.id, job.sessionId) :: heads) :
    Covers sessionLimit ({ merge with heads }.advance job.sessionId) left := by
  have sorted := covers.sorted
  have nodup := covers.nodup
  rw [top, List.pairwise_cons] at sorted
  rw [top, List.map_cons, List.nodup_cons] at nodup
  obtain ⟨rest, iterator, ids⟩ := covers.head_eq job.id job.sessionId (by rw [top]; simp)
  rw [idsOf_cons, if_pos rfl, List.cons.injEq] at ids
  have others {id session : Nat} (member : (id, session) ∈ heads) : session ≠ job.sessionId ∧
      ∃ rest, merge.iterators session = some rest ∧ idsOf left session = id :: rest := by
    have other : session ≠ job.sessionId := by
      rintro rfl
      exact nodup.1 (List.mem_map.mpr ⟨_, member, rfl⟩)
    have head := covers.head_eq id session (by rw [top]; exact List.mem_cons_of_mem _ member)
    rw [idsOf_cons, if_neg other.symm] at head
    exact ⟨other, head⟩
  have missing {session : Nat} (other : session ≠ job.sessionId)
      (absent : session ∉ heads.map Prod.snd) (remaining : idsOf left session ≠ []) :
      capped sessionLimit session (merge.perSession session) := by
    refine covers.missing session ?_ (by rwa [idsOf_cons, if_neg other.symm])
    rw [top, List.map_cons, List.mem_cons, not_or]
    exact ⟨other, absent⟩
  cases rest with
  | nil =>
    have same : { merge with heads }.advance job.sessionId = { merge with heads } := by
      simp [Merge.advance, iterator]
    rw [same]
    refine ⟨sorted.2, nodup.2, fun id session member => (others member).2,
      fun session absent remaining => missing ?_ absent remaining⟩
    rintro rfl
    exact remaining ids.2
  | cons next rest =>
    have pushed : { merge with heads }.advance job.sessionId = { merge with
        heads := heads.orderedInsert headBefore (next, job.sessionId)
        iterators := Function.update merge.iterators job.sessionId (some rest) } := by
      simp [Merge.advance, iterator]
    rw [pushed]
    have sessions := (List.perm_orderedInsert headBefore (next, job.sessionId) heads).map Prod.snd
    refine ⟨sorted_orderedInsert _ sorted.2, ?_, fun id session member => ?_,
      fun session absent remaining => ?_⟩
    · rw [sessions.nodup_iff, List.map_cons, List.nodup_cons]
      exact nodup
    · dsimp only at member ⊢
      rcases (List.mem_orderedInsert headBefore).mp member with isNext | earlier
      · cases isNext
        exact ⟨rest, Function.update_self _ _ _, ids.2⟩
      · obtain ⟨other, head⟩ := others earlier
        rwa [Function.update_of_ne other]
    · dsimp only at absent
      rw [sessions.mem_iff, List.map_cons, List.mem_cons, not_or] at absent
      exact missing absent.1 absent.2 remaining

theorem choose (covers : Covers sessionLimit merge left) (jobs : Jobs) (id session : Nat) :
    Covers sessionLimit (merge.choose jobs id session) left := by
  unfold Merge.choose
  cases jobs.get? id with
  | none => exact covers
  | some found =>
    dsimp only
    split_ifs
    · exact covers
    · refine ⟨covers.sorted, covers.nodup, covers.head_eq, fun other absent remaining => ?_⟩
      refine capped_mono (covers.missing other absent remaining) ?_
      dsimp only
      by_cases same : other = session
      · rw [same, Function.update_self]
        omega
      · rw [Function.update_of_ne same]

end Covers

theorem foldl_offer_full {sessionLimit : Nat → Option Nat} {freeSlots : Nat} {scan : Scan}
    (full : ¬ scan.startable.length < freeSlots) (jobs : List TransferJob) :
    jobs.foldl (Scan.offer sessionLimit freeSlots) scan = scan := by
  induction jobs with
  | nil => rfl
  | cons job rest ih =>
    have same : scan.offer sessionLimit freeSlots job = scan := if_neg fun kept => full kept.1
    rw [List.foldl_cons, same, ih]

theorem scan_choose_advance {sessionLimit : Nat → Option Nat} {freeSlots : Nat} {jobs : Jobs}
    {merge : Merge} {job : TransferJob} (heads : List (Nat × Nat))
    (found : jobs.get? job.id = some job) (free : merge.startable.length < freeSlots)
    (open_ : ¬ capped sessionLimit job.sessionId (merge.perSession job.sessionId)) :
    (({ merge with heads }.advance job.sessionId).choose jobs job.id job.sessionId).scan =
      merge.scan.offer sessionLimit freeSlots job := by
  have advanced : ({ merge with heads }.advance job.sessionId).busyDestinations =
        merge.busyDestinations ∧
      ({ merge with heads }.advance job.sessionId).perSession = merge.perSession ∧
      ({ merge with heads }.advance job.sessionId).startable = merge.startable := by
    unfold Merge.advance
    split <;> exact ⟨rfl, rfl, rfl⟩
  obtain ⟨busy, perSession, startable⟩ := advanced
  unfold Merge.choose Scan.offer Merge.scan
  simp only [found, busy, perSession, startable, free, open_, not_false_iff, true_and,
    Bool.false_eq_true]
  by_cases taken : job.destination ∈ merge.busyDestinations <;> simp [taken, busy, perSession,
    startable]

/-- The merge chooses what the scan chooses. -/
theorem run_eq_scan {sessionLimit : Nat → Option Nat} {freeSlots : Nat} {jobs : Jobs}
    (left : List TransferJob) {merge : Merge} {fuel : Nat} (enough : left.length ≤ fuel)
    (covers : Covers sessionLimit merge left)
    (increasing : left.Pairwise fun first second => first.id < second.id)
    (found : ∀ job ∈ left, jobs.get? job.id = some job) :
    (merge.run jobs sessionLimit freeSlots fuel).startable =
      (left.foldl (Scan.offer sessionLimit freeSlots) merge.scan).startable := by
  induction left generalizing merge fuel with
  | nil =>
    have empty : merge.heads = [] := by
      rw [List.eq_nil_iff_forall_not_mem]
      intro entry member
      obtain ⟨_, _, ids⟩ := covers.head_eq entry.1 entry.2 member
      cases ids
    cases fuel with
    | zero => rfl
    | succ fuel =>
      unfold Merge.run
      rw [empty]
      split_ifs <;> rfl
  | cons job left ih =>
    obtain ⟨fuel, rfl⟩ : ∃ less, fuel = less + 1 :=
      ⟨fuel - 1, by rw [List.length_cons] at enough; omega⟩
    rw [List.length_cons] at enough
    have later := (List.pairwise_cons.mp increasing).2
    have foundLater : ∀ job ∈ left, jobs.get? job.id = some job := fun job member =>
      found job (List.mem_cons_of_mem _ member)
    by_cases free : merge.startable.length < freeSlots
    · by_cases member : job.sessionId ∈ merge.heads.map Prod.snd
      · obtain ⟨heads, top⟩ := covers.head_of_mem increasing member
        unfold Merge.run
        rw [if_pos free, top, List.foldl_cons]
        dsimp only
        by_cases reached : capped sessionLimit job.sessionId (merge.perSession job.sessionId)
        · have rejected : merge.scan.offer sessionLimit freeSlots job = merge.scan :=
            if_neg fun kept => kept.2.1 reached
          rw [if_pos reached, rejected]
          exact ih (by omega) (covers.popCapped top reached) later foundLater
        · rw [if_neg reached, ← scan_choose_advance heads (found job (by simp)) free reached]
          exact ih (by omega) ((covers.popAdvance top).choose jobs _ _) later foundLater
      · obtain ⟨reached, rest⟩ := covers.skip member
        have rejected : merge.scan.offer sessionLimit freeSlots job = merge.scan :=
          if_neg fun kept => kept.2.1 reached
        rw [List.foldl_cons, rejected]
        exact ih (by omega) rest later foundLater
    · have full : ¬ merge.scan.startable.length < freeSlots := free
      rw [foldl_offer_full full]
      unfold Merge.run
      rw [if_neg free]
      rfl

/-! ### Loading the heap -/

/-- What loading the heap maintains: it covers the sessions entered so far. -/
structure Loading (sessionLimit : Nat → Option Nat) (perSession : Nat → Nat)
    (left : List TransferJob) (entered : List Nat) (merge : Merge) : Prop where
  sorted : merge.heads.Pairwise headBefore
  nodup : (merge.heads.map Prod.snd).Nodup
  head_eq : ∀ id session, (id, session) ∈ merge.heads → session ∈ entered ∧
    ∃ rest, merge.iterators session = some rest ∧ idsOf left session = id :: rest
  missing : ∀ session ∈ entered, session ∉ merge.heads.map Prod.snd →
    idsOf left session ≠ [] → capped sessionLimit session (perSession session)
  perSession_eq : merge.perSession = perSession

theorem Loading.addSession {sessionLimit : Nat → Option Nat} {perSession : Nat → Nat}
    {left : List TransferJob} {entered : List Nat} {merge : Merge}
    (loading : Loading sessionLimit perSession left entered merge)
    {entry : Nat × OrderedSet Nat} (fresh : entry.1 ∉ entered)
    (ids : entry.2.keys = idsOf left entry.1) :
    Loading sessionLimit perSession left (entry.1 :: entered)
      (merge.addSession sessionLimit entry) := by
  obtain ⟨sorted, nodup, headEq, missing, samePerSession⟩ := loading
  have headEq' (id session : Nat) (member : (id, session) ∈ merge.heads) :
      session ∈ entry.1 :: entered ∧
        ∃ rest, merge.iterators session = some rest ∧ idsOf left session = id :: rest :=
    ⟨List.mem_cons_of_mem _ (headEq id session member).1, (headEq id session member).2⟩
  unfold Merge.addSession
  by_cases reached : capped sessionLimit entry.1 (merge.perSession entry.1)
  · rw [if_pos reached]
    refine ⟨sorted, nodup, headEq', fun session isEntered absent remaining => ?_, samePerSession⟩
    rcases List.mem_cons.mp isEntered with rfl | earlier
    · rwa [samePerSession] at reached
    · exact missing session earlier absent remaining
  · rw [if_neg reached, ids]
    cases remaining : idsOf left entry.1 with
    | nil =>
      refine ⟨sorted, nodup, headEq', fun session isEntered absent some => ?_, samePerSession⟩
      rcases List.mem_cons.mp isEntered with rfl | earlier
      · exact absurd remaining some
      · exact missing session earlier absent some
    | cons first rest =>
      have sessions := (List.perm_orderedInsert headBefore (first, entry.1) merge.heads).map
        Prod.snd
      refine ⟨sorted_orderedInsert _ sorted, ?_, fun id session member => ?_,
        fun session isEntered absent some => ?_, samePerSession⟩
      · rw [sessions.nodup_iff, List.map_cons, List.nodup_cons]
        refine ⟨fun member => ?_, nodup⟩
        obtain ⟨⟨id, session⟩, inHeap, same⟩ := List.mem_map.mp member
        dsimp only at same
        exact fresh (same ▸ (headEq id session inHeap).1)
      · dsimp only at member ⊢
        rcases (List.mem_orderedInsert headBefore).mp member with isNew | earlier
        · cases isNew
          exact ⟨List.mem_cons_self, rest, Function.update_self _ _ _, remaining⟩
        · obtain ⟨isEntered, head⟩ := headEq id session earlier
          have other : session ≠ entry.1 := fun same => fresh (same ▸ isEntered)
          rw [Function.update_of_ne other]
          exact ⟨List.mem_cons_of_mem _ isEntered, head⟩
      · dsimp only at absent
        rw [sessions.mem_iff, List.map_cons, List.mem_cons, not_or] at absent
        rcases List.mem_cons.mp isEntered with same | earlier
        · exact absurd same absent.1
        · exact missing session earlier absent.2 some

theorem foldl_addSession {sessionLimit : Nat → Option Nat} {perSession : Nat → Nat}
    {left : List TransferJob} (entries : List (Nat × OrderedSet Nat)) {entered : List Nat}
    {merge : Merge} (loading : Loading sessionLimit perSession left entered merge)
    (fresh : (entries.map Prod.fst).Nodup) (apart : ∀ entry ∈ entries, entry.1 ∉ entered)
    (ids : ∀ entry ∈ entries, entry.2.keys = idsOf left entry.1) :
    Loading sessionLimit perSession left ((entries.map Prod.fst).reverse ++ entered)
      (entries.foldl (Merge.addSession sessionLimit) merge) := by
  induction entries generalizing entered merge with
  | nil => exact loading
  | cons entry rest ih =>
    rw [List.map_cons, List.nodup_cons] at fresh
    have step := loading.addSession (apart entry (by simp)) (ids entry (by simp))
    have loaded := ih step fresh.2 (fun other member => by
        rw [List.mem_cons, not_or]
        refine ⟨fun same => fresh.1 (same ▸ List.mem_map_of_mem member), ?_⟩
        exact apart other (List.mem_cons_of_mem _ member))
      (fun other member => ids other (List.mem_cons_of_mem _ member))
    simpa using loaded

theorem addSession_scan (sessionLimit : Nat → Option Nat) (merge : Merge)
    (entries : List (Nat × OrderedSet Nat)) :
    (entries.foldl (Merge.addSession sessionLimit) merge).scan = merge.scan := by
  induction entries generalizing merge with
  | nil => rfl
  | cons entry rest ih =>
    rw [List.foldl_cons, ih]
    unfold Merge.addSession Merge.scan
    split_ifs
    · rfl
    · split <;> rfl

/-! ### The choice of an indexed queue -/

namespace Indexed

variable {queue : TransferQueue}

theorem filterMap_get? (indexed : queue.Indexed) (test : TransferJob → Prop) [DecidablePred test] :
    (queue.jobs.filterMap fun _ job => if test job then some () else none).keys.filterMap
      queue.jobs.get? = queue.jobs.values.filter fun job => decide (test job) := by
  rw [OrderedMap.keys_filterMap_of_keyed indexed.keyed, List.filterMap_map]
  refine (List.filterMap_congr (g := some) fun job member => ?_).trans List.filterMap_some
  obtain ⟨key, found⟩ := OrderedMap.mem_values_iff.mp (List.mem_filter.mp member).1
  rw [Function.comp_apply, indexed.keyed key job found, found]

theorem activeJobs_eq (indexed : queue.Indexed) : queue.activeJobs = runningJobs queue.jobs := by
  rw [activeJobs, indexed.sets.running_eq]
  exact indexed.filterMap_get? fun job => job.status = .inProgress

theorem length_running (indexed : queue.Indexed) :
    queue.running.keys.length = (runningJobs queue.jobs).length := by
  rw [indexed.sets.running_eq, recountStatus,
    OrderedMap.keys_filterMap_of_keyed indexed.keyed fun job => job.status = .inProgress,
    List.length_map, runningJobs]

theorem keys_queued (indexed : queue.Indexed) :
    queue.queued.keys = (waitingJobs queue.jobs).map TransferJob.id := by
  rw [indexed.sets.queued_eq, recountStatus,
    OrderedMap.keys_filterMap_of_keyed indexed.keyed fun job => job.status = .queued, waitingJobs]

theorem keys_queuedIn (indexed : queue.Indexed) (session : Nat) :
    (recountQueuedIn queue.jobs session).keys = idsOf (waitingJobs queue.jobs) session := by
  rw [recountQueuedIn, OrderedMap.keys_filterMap_of_keyed indexed.keyed
    fun job => job.status = .queued ∧ job.sessionId = session, idsOf, waitingJobs,
    List.filter_filter]
  congr 2
  funext job
  simp [and_comm]

theorem waitingJobs_increasing (indexed : queue.Indexed) :
    (waitingJobs queue.jobs).Pairwise fun first second => first.id < second.id := by
  have keys := queue.queued.keys_pairwise
  rwa [indexed.keys_queued, List.pairwise_map] at keys

theorem get?_waitingJobs (indexed : queue.Indexed) :
    ∀ job ∈ waitingJobs queue.jobs, queue.jobs.get? job.id = some job := by
  intro job member
  obtain ⟨key, found⟩ := OrderedMap.mem_values_iff.mp (List.mem_filter.mp member).1
  rwa [indexed.keyed key job found]

/-- The heap covers all queued jobs once every session was entered. -/
theorem covers_loaded (indexed : queue.Indexed) (order : HashOrder)
    (sessionLimit : Nat → Option Nat) {initial : Merge} (noHeads : initial.heads = []) :
    Covers sessionLimit
      ((order.sessions queue.queuedBySession.entries).foldl (Merge.addSession sessionLimit) initial)
      (waitingJobs queue.jobs) := by
  have walked := order.sessions_perm queue.queuedBySession.entries
  have entryIds : ∀ entry ∈ order.sessions queue.queuedBySession.entries,
      entry.2.keys = idsOf (waitingJobs queue.jobs) entry.1 := by
    intro entry member
    have found := OrderedMap.mem_entries_iff.mp (walked.mem_iff.mp member)
    rw [indexed.sets.queuedBySession_eq, recountQueuedBySession] at found
    split_ifs at found
    rw [Option.some.injEq] at found
    rw [← found]
    exact indexed.keys_queuedIn entry.1
  have start : Loading sessionLimit initial.perSession (waitingJobs queue.jobs) [] initial := by
    refine ⟨?_, ?_, ?_, ?_, rfl⟩ <;> simp [noHeads]
  have loaded := foldl_addSession _ start
    ((walked.map Prod.fst).nodup_iff.mpr queue.queuedBySession.nodup_keys) (by simp) entryIds
  refine ⟨loaded.sorted, loaded.nodup, fun id session member => (loaded.head_eq id session member).2,
    fun session absent remaining => ?_⟩
  rw [loaded.perSession_eq]
  refine loaded.missing session ?_ absent remaining
  rw [List.append_nil, List.mem_reverse, (walked.map Prod.fst).mem_iff]
  change session ∈ queue.queuedBySession.keys
  rw [OrderedMap.mem_keys_iff, indexed.sets.queuedBySession_eq, recountQueuedBySession]
  have nonempty : ¬ (recountQueuedIn queue.jobs session).entries.isEmpty := by
    rw [← indexed.keys_queuedIn, OrderedMap.keys, ne_eq, List.map_eq_nil_iff] at remaining
    rwa [List.isEmpty_iff]
  exact ⟨_, if_neg nonempty⟩

theorem length_waitingJobs_le (indexed : queue.Indexed) : (waitingJobs queue.jobs).length ≤
      (queue.queuedBySession.values.map fun ids => ids.keys.length).sum := by
  have sub : queue.queued.keys ⊆ queue.queuedBySession.values.flatMap OrderedMap.keys := by
    intro id member
    rw [indexed.keys_queued, List.mem_map] at member
    obtain ⟨job, waiting, rfl⟩ := member
    have inSession : job.id ∈ idsOf (waitingJobs queue.jobs) job.sessionId :=
      mem_idsOf.mpr ⟨job, waiting, rfl, rfl⟩
    rw [← indexed.keys_queuedIn] at inSession
    refine List.mem_flatMap.mpr ⟨recountQueuedIn queue.jobs job.sessionId, ?_, inSession⟩
    rw [OrderedMap.mem_values_iff]
    refine ⟨job.sessionId, ?_⟩
    rw [indexed.sets.queuedBySession_eq, recountQueuedBySession, if_neg]
    rw [List.isEmpty_iff]
    intro empty
    rw [OrderedMap.keys, empty] at inSession
    cases inSession
  have bound := queue.queued.nodup_keys.length_le_of_subset sub
  rwa [indexed.keys_queued, List.length_map, List.length_flatMap] at bound

theorem startableLimited_eq (indexed : queue.Indexed) (order : HashOrder) (limit : Nat)
    (sessionLimit : Nat → Option Nat) :
    queue.startableLimited order limit sessionLimit =
      referenceStartable queue.jobs limit sessionLimit := by
  unfold startableLimited referenceStartable
  simp only [indexed.length_running, indexed.activeJobs_eq]
  split_ifs with nothing
  · rcases nothing with noSlot | noJob
    · rw [foldl_offer_full]
      simp [noSlot]
    · have noneWaiting : waitingJobs queue.jobs = [] := by
        rw [← List.map_eq_nil_iff (f := TransferJob.id), ← indexed.keys_queued, OrderedMap.keys,
          noJob, List.map_nil]
      simp [noneWaiting]
  · rw [run_eq_scan (waitingJobs queue.jobs) indexed.length_waitingJobs_le
      (indexed.covers_loaded order sessionLimit rfl) indexed.waitingJobs_increasing
      indexed.get?_waitingJobs, addSession_scan]
    have perSession : queue.runningPerSession = fun session =>
        (runningJobs queue.jobs).countP fun job => decide (job.sessionId = session) := by
      funext session
      rw [runningPerSession, indexed.activeJobs_eq]
    simp only [Merge.scan, perSession]

end Indexed

/-- The heap merge chooses exactly the jobs that a plain scan of all queued jobs
in the order of their ids chooses. -/
theorem startableLimited_eq_referenceStartable {queue : TransferQueue}
    (reached : Reachable anyOp queue) (order : HashOrder) (limit : Nat)
    (sessionLimit : Nat → Option Nat) :
    queue.startableLimited order limit sessionLimit =
      referenceStartable queue.jobs limit sessionLimit :=
  reached.indexed.startableLimited_eq order limit sessionLimit

/-- Two queued uploads of one session, whose cap is one. -/
theorem startableLimited_capped :
    (halfDone.take 3 |>.foldl QueueOp.apply new).startableLimited .insertion 4 (fun _ => some 1) =
      referenceStartable (halfDone.take 3 |>.foldl QueueOp.apply new).jobs 4 fun _ => some 1 :=
  startableLimited_eq_referenceStartable
    (Reachable.new.foldl (halfDone.take 3) fun _ _ _ => trivial) .insertion 4 fun _ => some 1

example : (halfDone.take 3 |>.foldl QueueOp.apply new).startableLimited .insertion 4
    (fun _ => some 1) = [0] := by decide

end TransferQueue

end Porthmos
