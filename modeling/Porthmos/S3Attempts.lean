import Porthmos.S3Staged

/-!
# What the operations do to an upload

One lemma for each operation of the file system says what it learns of an upload and what it leaves
behind, for any answers of the service.
-/

namespace Porthmos

namespace Staged

open Program S3Fs

variable {staged : Staged} {service : S3Service} {id : String}

theorem Sound.only (sound : staged.Sound service) {first second : StartedUpload}
    (isFirst : first ∈ service.started) (isSecond : second ∈ service.started) : first = second := by
  have few := sound.few
  match service.started, few, isFirst, isSecond with
  | [upload], _, isFirst, isSecond =>
    rw [List.mem_singleton.mp isFirst, List.mem_singleton.mp isSecond]

/-! ### Reading -/

theorem mem_listedParts {stored : StoredUpload} {part : UploadPart} :
    part ∈ stored.listedParts ↔ ∃ number found, stored.parts.get? number = some found ∧
      part = ⟨number, found.data.length, found.etag, found.modified⟩ := by
  unfold StoredUpload.listedParts
  rw [List.mem_map]
  constructor
  · rintro ⟨⟨number, found⟩, member, rfl⟩
    exact ⟨number, found, OrderedMap.mem_entries_iff.mp member, rfl⟩
  · rintro ⟨number, found, isFound, rfl⟩
    exact ⟨⟨number, found⟩, OrderedMap.mem_entries_iff.mpr isFound, rfl⟩

theorem mem_sent {upload : StartedUpload} {part : UploadPart} :
    part ∈ upload.sent ↔ ∃ number etag size, upload.parts.get? number = some (etag, size) ∧
      part = ⟨number, size, etag, none⟩ := by
  unfold StartedUpload.sent
  rw [List.mem_map]
  constructor
  · rintro ⟨⟨number, etag, size⟩, member, rfl⟩
    exact ⟨number, etag, size, OrderedMap.mem_entries_iff.mp member, rfl⟩
  · rintro ⟨number, etag, size, isFound, rfl⟩
    exact ⟨⟨number, etag, size⟩, OrderedMap.mem_entries_iff.mpr isFound, rfl⟩

/-- The parts that the service lists. -/
theorem Sound.vouched_listed (sound : staged.Sound service)
    (lists : staged.policy.listsParts = true) {stored : StoredUpload}
    (member : stored ∈ service.uploads) (named : stored.Is staged.bucket staged.key id)
    {parts : List UploadPart} (isPerm : parts.Perm stored.listedParts) :
    staged.Vouched service id parts := by
  have listed : ∀ part ∈ parts, ∃ found, stored.parts.get? part.number = some found ∧
      part.size = found.data.length := by
    intro part inParts
    obtain ⟨number, found, isFound, rfl⟩ := mem_listedParts.mp (isPerm.subset inParts)
    exact ⟨found, isFound, rfl⟩
  have noted {known : Prop} (unlisted : staged.policy.listsParts = false) : known := by
    rw [lists] at unlisted
    cases unlisted
  constructor
  · constructor
    · apply (isPerm.map UploadPart.number).nodup_iff.mpr
      have numbers : stored.listedParts.map UploadPart.number = stored.parts.keys := by
        unfold StoredUpload.listedParts OrderedMap.keys
        rw [List.map_map]
        rfl
      rw [numbers]
      exact stored.parts.nodup_keys
    · intro part inParts
      obtain ⟨found, isFound, _⟩ := listed part inParts
      exact (sound.stored stored member id named _ _ isFound).1
  · intro part inParts
    obtain ⟨found, isFound, _⟩ := listed part inParts
    exact (sound.stored stored member id named _ _ isFound).2.1
  · intro part inParts isFull
    obtain ⟨found, isFound, size⟩ := listed part inParts
    have isPrefix := (sound.stored stored member id named _ _ isFound).2.2
    constructor
    · intro upload isUpload same
      rw [sound.distinct upload isUpload stored member id same named, isFound]
      exact congrArg some (eq_part_of_full isPrefix (size.symm.trans isFull))
    · exact noted
  · intro part inParts isFull
    obtain ⟨found, isFound, size⟩ := listed part inParts
    have isPrefix := (sound.stored stored member id named _ _ isFound).2.2
    exact length_part_of_full isPrefix (size.symm.trans isFull)
  · intro number _ placed
    obtain ⟨found, isFound, isPart⟩ := Option.map_eq_some_iff.mp (placed.stored stored member named)
    right
    refine ⟨_, isPerm.symm.subset (mem_listedParts.mpr ⟨number, found, isFound, rfl⟩), rfl, ?_⟩
    exact congrArg List.length isPart
  · exact noted

/-- The parts that the client has noted, where it may not list them. -/
theorem Sound.vouched_noted (sound : staged.Sound service)
    (unlisted : staged.policy.listsParts = false) {upload : StartedUpload}
    (member : upload ∈ service.started) : staged.Vouched service upload.id upload.sent := by
  constructor
  · constructor
    · have numbers : upload.sent.map UploadPart.number = upload.parts.keys := by
        unfold StartedUpload.sent OrderedMap.keys
        rw [List.map_map]
        rfl
      rw [numbers]
      exact upload.parts.nodup_keys
    · intro part inParts
      obtain ⟨number, etag, size, isFound, rfl⟩ := mem_sent.mp inParts
      exact (sound.noted unlisted upload member _ _ _ isFound).1
  · intro part inParts
    obtain ⟨number, etag, size, isFound, rfl⟩ := mem_sent.mp inParts
    exact (sound.noted unlisted upload member _ _ _ isFound).2.1
  · intro part inParts isFull
    obtain ⟨number, etag, size, isFound, rfl⟩ := mem_sent.mp inParts
    exact (sound.noted unlisted upload member _ _ _ isFound).2.2.2.2 isFull
  · intro part inParts isFull
    obtain ⟨number, etag, size, isFound, rfl⟩ := mem_sent.mp inParts
    have atMost := (sound.noted unlisted upload member _ _ _ isFound).2.2.1
    have atLeast := staged.length_part_le number
    dsimp only at isFull ⊢
    omega
  · intro number _ placed
    obtain ⟨⟨etag, size⟩, isFound, isSize⟩ :=
      Option.map_eq_some_iff.mp (placed.noted unlisted upload member rfl)
    exact Or.inr ⟨_, mem_sent.mpr ⟨number, etag, size, isFound, rfl⟩, rfl, isSize⟩
  · intro _ other isOther _ number etag size isFound
    rw [sound.only isOther member] at isFound
    exact ⟨_, mem_sent.mpr ⟨number, etag, size, isFound, rfl⟩, rfl, rfl⟩

theorem vouched_nil (none : ∀ upload ∈ service.started, upload.id ≠ id) :
    staged.Vouched service id [] := by
  constructor
  · exact ⟨List.nodup_nil, fun _ member => absurd member List.not_mem_nil⟩
  · intro part member
    cases member
  · intro part member
    cases member
  · intro part member
    cases member
  · intro _ _ _
    exact Or.inl rfl
  · intro _ upload member same
    exact absurd same (none upload member)

theorem Sound.knownParts (sound : staged.Sound service) (id : String) :
    Ensures staged.policy.serves (fun state => state = service)
      (S3Fs.knownParts staged.bucket staged.key id)
      (fun result after => after = service ∧
        ∀ parts, result = .ok parts → staged.Vouched service id parts) := by
  apply ensures_bind (fun result after => after = service ∧ ∃ answer, result = .ok answer ∧
    match answer with
    | .ok parts => staged.Vouched service id parts
    | .error err => staged.policy.listsParts = true → err.kind ≠ .permissionDenied)
  · apply ensures_attempt (fun answer after => after = service ∧
      match answer with
      | .ok parts => staged.Vouched service id parts
      | .error err => staged.policy.listsParts = true → err.kind ≠ .permissionDenied)
    · apply ensures_send
      rintro _ answer after rfl served
      cases answer with
      | ok parts =>
        obtain ⟨rfl, lists, stored, member, named, isPerm⟩ := served
        exact ⟨rfl, sound.vouched_listed lists member named isPerm⟩
      | error err => exact served
    · rintro answer after ⟨same, isAnswer⟩
      exact ⟨same, answer, rfl, isAnswer⟩
  · intro answer
    cases answer with
    | ok parts =>
      apply ensures_done
      rintro state ⟨same, _, ⟨⟩, vouched⟩
      refine ⟨same, ?_⟩
      rintro _ ⟨⟩
      exact vouched
    | error err =>
      dsimp only
      split_ifs with denied
      · apply ensures_bind (fun result after => after = service ∧
          staged.policy.listsParts = false ∧ result = .ok service.started)
        · apply ensures_send
          rintro _ started after ⟨rfl, _, ⟨⟩, refused⟩ ⟨rfl, rfl⟩
          refine ⟨rfl, ?_, rfl⟩
          cases lists : staged.policy.listsParts with
          | false => rfl
          | true => exact absurd denied (refused lists)
        · intro started
          apply ensures_done
          rintro state ⟨same, unlisted, isStarted⟩
          refine ⟨same, ?_⟩
          rintro _ ⟨⟩
          cases isStarted
          cases found : service.started.find? fun upload => upload.id = id with
          | none =>
            apply vouched_nil
            intro upload member isId
            exact absurd isId (by simpa using List.find?_eq_none.mp found upload member)
          | some upload =>
            have isId : upload.id = id := by simpa using List.find?_some found
            rw [← isId]
            exact sound.vouched_noted unlisted (List.mem_of_find?_eq_some found)
        · rintro err state ⟨_, _, failed⟩
          cases failed
      · apply ensures_done
        rintro state ⟨same, _⟩
        exact ⟨same, fun parts isOk => by cases isOk⟩
  · rintro err state ⟨_, _, failed, _⟩
    cases failed

theorem known_of_newest {listed : List Upload} {upload : Upload}
    (served : if staged.policy.listsUploads then
        ∀ upload, upload ∈ listed ↔ ∃ stored ∈ service.uploads, stored.bucket = staged.bucket ∧
          (∃ rest, stored.key = staged.key ++ rest) ∧ upload = stored.listed
      else listed = [])
    (found : newest listed staged.key = some upload) : staged.Known service upload.id := by
  obtain ⟨member, isKey⟩ := newest_mem found
  split_ifs at served with lists
  · obtain ⟨stored, isStored, inBucket, _, rfl⟩ := (served upload).mp member
    exact Or.inl ⟨lists, stored, isStored, inBucket, isKey, rfl⟩
  · rw [served] at member
    cases member

theorem unlisted_of_newest {listed : List Upload} (served : if staged.policy.listsUploads then
        ∀ upload, upload ∈ listed ↔ ∃ stored ∈ service.uploads, stored.bucket = staged.bucket ∧
          (∃ rest, stored.key = staged.key ++ rest) ∧ upload = stored.listed
      else listed = [])
    (none : newest listed staged.key = none) (lists : staged.policy.listsUploads = true) :
    ∀ stored ∈ service.uploads, ¬stored.Is staged.bucket staged.key id := by
  intro stored member named
  rw [if_pos lists] at served
  have isListed : stored.listed ∈ listed :=
    (served stored.listed).mpr ⟨stored, member, named.1, ⟨"", by simpa using named.2.1⟩, rfl⟩
  have isSome := newest_isSome isListed named.2.1
  rw [none] at isSome
  cases isSome

theorem Sound.startedUpload (sound : staged.Sound service) :
    Ensures staged.policy.serves (fun state => state = service)
      (S3Fs.startedUpload staged.bucket staged.key)
      (fun result after => after = service ∧ ∀ found, result = .ok found →
        match found with
        | none => service.started = []
        | some upload => upload ∈ service.started) := by
  apply ensures_bind (fun result after => after = service ∧ result = .ok service.started)
  · apply ensures_send
    rintro _ started after rfl ⟨isStarted, rfl⟩
    exact ⟨rfl, isStarted⟩
  · intro started
    apply ensures_done
    rintro state ⟨same, isStarted⟩
    refine ⟨same, ?_⟩
    rintro _ ⟨⟩
    cases isStarted
    cases found : service.started.reverse.find? fun upload =>
        upload.bucket = staged.bucket ∧ upload.key = staged.key with
    | none =>
      dsimp only
      rw [List.eq_nil_iff_forall_not_mem]
      intro upload member
      have other := List.find?_eq_none.mp found upload (List.mem_reverse.mpr member)
      exact other (by simpa using sound.own upload member)
    | some upload => exact List.mem_reverse.mp (List.mem_of_find?_eq_some found)
  · rintro err state ⟨_, failed⟩
    cases failed

theorem Sound.latestUpload (sound : staged.Sound service) :
    Ensures staged.policy.serves (fun state => state = service)
      (S3Fs.latestUpload staged.bucket staged.key)
      (fun result after => after = service ∧ ∀ found, result = .ok found →
        match found with
        | none => ∀ id, ¬staged.Known service id
        | some upload => staged.Known service upload.id) := by
  apply ensures_bind (fun result after => after = service ∧ ∀ listed, result = .ok listed →
    if staged.policy.listsUploads then
      ∀ upload, upload ∈ listed ↔ ∃ stored ∈ service.uploads, stored.bucket = staged.bucket ∧
        (∃ rest, stored.key = staged.key ++ rest) ∧ upload = stored.listed
    else listed = [])
  · apply ensures_send
    rintro _ listed after rfl served
    exact served
  · intro listed
    cases found : newest listed staged.key with
    | some upload =>
      apply ensures_done
      rintro state ⟨same, served⟩
      refine ⟨same, ?_⟩
      rintro _ ⟨⟩
      exact known_of_newest (served listed rfl) found
    | none =>
      apply ensures_of_pre (if staged.policy.listsUploads then
          ∀ upload, upload ∈ listed ↔ ∃ stored ∈ service.uploads,
            stored.bucket = staged.bucket ∧ (∃ rest, stored.key = staged.key ++ rest) ∧
              upload = stored.listed
        else listed = [])
      · rintro state ⟨_, served⟩
        exact served listed rfl
      · intro served
        apply (sound.startedUpload.strengthen fun state isSame => isSame.1).bind
        · intro started
          apply ensures_done
          rintro state ⟨same, told⟩
          refine ⟨same, ?_⟩
          rintro _ ⟨⟩
          have isTold := told started rfl
          cases started with
          | none =>
            dsimp only at isTold
            rintro id (⟨lists, stored, member, named⟩ | ⟨upload, member, _⟩)
            · exact unlisted_of_newest served found lists stored member named
            · rw [isTold] at member
              cases member
          | some upload => exact known_of_started isTold
        · rintro err state ⟨same, _⟩
          exact ⟨same, fun found isOk => by cases isOk⟩
  · rintro err state ⟨same, _⟩
    exact ⟨same, fun found isOk => by cases isOk⟩

theorem Sound.pending (sound : staged.Sound service) :
    Ensures staged.policy.serves (fun state => state = service)
      (S3Fs.pending staged.bucket staged.key)
      (fun result after => after = service ∧ ∀ found, result = .ok found →
        match found with
        | none => ∀ id, ¬staged.Known service id
        | some (upload, progress, parts) => staged.Known service upload.id ∧
            progress = contiguous parts ∧ staged.Vouched service upload.id parts) := by
  apply sound.latestUpload.bind
  · intro found
    cases found with
    | none =>
      apply ensures_done
      rintro state ⟨same, unknown⟩
      refine ⟨same, ?_⟩
      rintro _ ⟨⟩
      exact unknown none rfl
    | some upload =>
      apply ensures_of_pre (staged.Known service upload.id)
      · rintro state ⟨_, known⟩
        exact known _ rfl
      · intro known
        apply ((sound.knownParts upload.id).strengthen fun state isSame => isSame.1).bind
        · intro parts
          apply ensures_done
          rintro state ⟨same, vouched⟩
          refine ⟨same, ?_⟩
          rintro _ ⟨⟩
          exact ⟨known, rfl, vouched parts rfl⟩
        · rintro err state ⟨same, _⟩
          exact ⟨same, fun found isOk => by cases isOk⟩
  · rintro err state ⟨same, _⟩
    exact ⟨same, fun found isOk => by cases isOk⟩

/-! ### Starting over -/

theorem mem_uploadsOf {listed : List Upload} {started : List StartedUpload} {upload : Upload}
    (member : upload ∈ uploadsOf staged.bucket staged.key listed started) :
    upload.key = staged.key := by
  have kept (added uploads : List Upload) (all : ∀ known ∈ uploads, known.key = staged.key)
      (own : ∀ known ∈ added, known.key = staged.key) :
      ∀ known ∈ added.foldl (fun uploads upload =>
        if uploads.any fun known => known.id = upload.id then uploads else uploads ++ [upload])
        uploads, known.key = staged.key := by
    induction added generalizing uploads with
    | nil => exact all
    | cons first rest ih =>
      apply ih
      · dsimp only
        split_ifs
        · exact all
        · intro known isKnown
          rcases List.mem_append.mp isKnown with before | isNew
          · exact all known before
          · rw [List.mem_singleton.mp isNew]
            exact own first List.mem_cons_self
      · exact fun known later => own known (List.mem_cons_of_mem _ later)
  apply kept _ _ _ _ upload member
  · intro known isListed
    simpa using (List.mem_filter.mp isListed).2
  · intro known isOwn
    obtain ⟨own, inStarted, rfl⟩ := List.mem_map.mp isOwn
    have isOurs := (List.mem_filter.mp inStarted).2
    rw [decide_eq_true_iff] at isOurs
    exact isOurs.2

theorem id_mem_uploadsOf {listed : List Upload} {started : List StartedUpload}
    (known : (∃ upload ∈ listed, upload.key = staged.key ∧ upload.id = id) ∨
      ∃ upload ∈ started, (upload.bucket = staged.bucket ∧ upload.key = staged.key) ∧
        upload.id = id) :
    id ∈ (uploadsOf staged.bucket staged.key listed started).map Upload.id := by
  have kept (added uploads : List Upload)
      (here : id ∈ uploads.map Upload.id ∨ id ∈ added.map Upload.id) :
      id ∈ (added.foldl (fun uploads upload =>
        if uploads.any fun known => known.id = upload.id then uploads else uploads ++ [upload])
        uploads).map Upload.id := by
    induction added generalizing uploads with
    | nil => exact here.resolve_right List.not_mem_nil
    | cons first rest ih =>
      apply ih
      rcases here with before | isAdded
      · left
        dsimp only
        split_ifs
        · exact before
        · rw [List.map_append]
          exact List.mem_append_left _ before
      · rcases List.mem_cons.mp isAdded with isFirst | later
        · left
          dsimp only
          split_ifs with present
          · obtain ⟨known, member, same⟩ := List.any_eq_true.mp present
            exact List.mem_map.mpr ⟨known, member, (of_decide_eq_true same).trans isFirst.symm⟩
          · rw [List.map_append]
            exact List.mem_append_right _ (List.mem_singleton.mpr isFirst)
        · exact Or.inr later
  apply kept
  rcases known with ⟨upload, member, isKey, rfl⟩ | ⟨upload, member, isOurs, rfl⟩
  · left
    exact List.mem_map.mpr ⟨upload, List.mem_filter.mpr ⟨member, by simpa using isKey⟩, rfl⟩
  · right
    rw [List.map_map]
    exact List.mem_map.mpr ⟨upload, List.mem_filter.mpr ⟨member, decide_eq_true isOurs⟩, rfl⟩

/-- The uploads that are still to be aborted. -/
structure Aborting (staged : Staged) (left : List Upload) (service : S3Service) : Prop where
  sound : staged.Sound service
  key : ∀ upload ∈ left, upload.key = staged.key
  known : ∀ id, staged.Known service id → id ∈ left.map Upload.id

theorem sound_withoutUpload (sound : staged.Sound service) (key id : String) :
    staged.Sound (service.withoutUpload staged.bucket key id) :=
  sound.fewer (fun _ member => (List.mem_filter.mp member).1) (List.Sublist.refl _)

theorem sound_forgetting (sound : staged.Sound service) (id : String) :
    staged.Sound (service.forgetting id) :=
  sound.fewer (fun _ member => member) List.filter_sublist

theorem known_aborted {other : String} (known : staged.Known
      ((service.withoutUpload staged.bucket staged.key id).forgetting id) other) :
    staged.Known service other ∧ other ≠ id := by
  rcases known with ⟨lists, stored, member, named⟩ | ⟨upload, member, same⟩
  · obtain ⟨isStored, isOther⟩ := List.mem_filter.mp member
    constructor
    · exact Or.inl ⟨lists, stored, isStored, named⟩
    · rintro rfl
      exact of_decide_eq_true isOther named
  · obtain ⟨isStarted, isOther⟩ := List.mem_filter.mp member
    constructor
    · exact Or.inr ⟨upload, isStarted, same⟩
    · rintro rfl
      exact of_decide_eq_true isOther same

theorem abort_spec (upload : Upload) (left : List Upload) :
    Ensures staged.policy.serves (staged.Aborting (upload :: left))
      (S3Fs.abort staged.bucket upload) fun result after => match result with
        | .ok _ => staged.Aborting left after
        | .error _ => staged.Sound after := by
  apply ensures_bind fun result after => match result with
    | .ok _ => ∃ before, staged.Aborting (upload :: left) before ∧
        after = before.withoutUpload staged.bucket upload.key upload.id
    | .error _ => staged.Sound after
  · apply ensures_send
    intro before answer after aborting served
    cases answer with
    | ok _ => exact ⟨before, aborting, served⟩
    | error err =>
      rcases served with rfl | rfl
      · exact aborting.sound
      · exact sound_withoutUpload aborting.sound _ _
  · intro _
    apply ensures_send
    rintro _ answer after ⟨before, aborting, rfl⟩ ⟨rfl, rfl⟩
    have isKey := aborting.key upload List.mem_cons_self
    constructor
    · exact sound_forgetting (sound_withoutUpload aborting.sound _ _) _
    · exact fun other member => aborting.key other (List.mem_cons_of_mem _ member)
    · intro id known
      rw [isKey] at known
      obtain ⟨wasKnown, isOther⟩ := known_aborted known
      rcases List.mem_cons.mp (aborting.known id wasKnown) with same | later
      · exact absurd same isOther
      · exact later
  · intro err state failed
    exact failed

theorem abortAll_spec (staged : Staged) :
    Ensures staged.policy.serves staged.Sound (S3Fs.abortAll staged.bucket staged.key)
      fun result after => staged.Sound after ∧
        (result = .ok () → ∀ id, ¬staged.Known after id) := by
  apply ensures_bind fun result after => staged.Sound after ∧ ∀ listed, result = .ok listed →
    staged.policy.listsUploads = true → ∀ stored ∈ after.uploads, ∀ id,
      stored.Is staged.bucket staged.key id →
        ∃ upload ∈ listed, upload.key = staged.key ∧ upload.id = id
  · apply ensures_send
    rintro before answer _ sound ⟨rfl, served⟩
    refine ⟨sound, ?_⟩
    rintro listed rfl lists stored member id named
    have isListed := served listed rfl
    rw [if_pos lists] at isListed
    exact ⟨stored.listed, (isListed _).mpr ⟨stored, member, named.1, ⟨"", by simpa using named.2.1⟩,
      rfl⟩, named.2.1, named.2.2⟩
  · intro listed
    apply ensures_bind fun result after => staged.Sound after ∧ ∀ started, result = .ok started →
      staged.Aborting (uploadsOf staged.bucket staged.key listed started) after
    · apply ensures_send
      rintro _ answer state ⟨sound, isListed⟩ ⟨rfl, rfl⟩
      refine ⟨sound, ?_⟩
      rintro _ ⟨⟩
      constructor
      · exact sound
      · exact fun upload member => mem_uploadsOf member
      · rintro id (⟨lists, stored, member, named⟩ | ⟨upload, member, same⟩)
        · exact id_mem_uploadsOf (Or.inl (isListed listed rfl lists stored member id named))
        · exact id_mem_uploadsOf (Or.inr ⟨upload, member, sound.own upload member, same⟩)
    · intro started
      apply Ensures.strengthen (ensures_forEach staged.Aborting _ _ _)
      · rintro state ⟨_, aborting⟩
        exact aborting started rfl
      · intro upload left
        apply (abort_spec upload left).weaken
        intro result state ends
        cases result with
        | ok _ => exact ends
        | error err => exact ⟨ends, fun isOk => by cases isOk⟩
      · intro state aborting
        refine ⟨aborting.sound, ?_⟩
        intro _ id known
        exact absurd (aborting.known id known) List.not_mem_nil
    · rintro err state ⟨sound, _⟩
      exact ⟨sound, fun isOk => by cases isOk⟩
  · rintro err state ⟨sound, _⟩
    exact ⟨sound, fun isOk => by cases isOk⟩

/-- A new upload has no part, and the client knows no other. -/
theorem createUpload_spec (staged : Staged) : Ensures staged.policy.serves
      (fun state => staged.Sound state ∧ ∀ id, ¬staged.Known state id)
      (S3Fs.createUpload staged.bucket staged.key)
      fun result after => staged.Sound after ∧ ∀ id, result = .ok id → staged.Open after id 1 := by
  apply ensures_bind fun result after => staged.Sound after ∧ ∀ id, result = .ok id →
    ∀ other, staged.Known after other → other = id
  · apply ensures_send
    rintro before answer after ⟨sound, unknown⟩ served
    have created {id : String} (creates : before.Creates after staged.bucket staged.key id) :
        staged.Sound after ∧ ∀ other, staged.Known after other → other = id := by
      obtain ⟨fresh, initiated, rfl⟩ := creates
      exact ⟨sound.withUpload unknown fresh, fun other known => known_withUpload unknown known⟩
    cases answer with
    | ok id =>
      obtain ⟨isSound, only⟩ := created served
      refine ⟨isSound, ?_⟩
      rintro _ ⟨⟩
      exact only
    | error err =>
      refine ⟨?_, fun id isOk => by cases isOk⟩
      rcases served with rfl | ⟨id, creates⟩
      · exact sound
      · exact (created creates).1
  · intro id
    apply ensures_bind fun _ after => staged.Open after id 1
    · apply ensures_send
      rintro before answer after ⟨sound, only⟩ ⟨rfl, rfl⟩
      exact sound.remembering (only id rfl)
    · intro _
      apply ensures_done
      intro state isOpen
      refine ⟨isOpen.sound, ?_⟩
      rintro _ ⟨⟩
      exact isOpen
    · intro err state isOpen
      exact ⟨isOpen.sound, fun id isOk => by cases isOk⟩
  · rintro err state ⟨sound, _⟩
    exact ⟨sound, fun id isOk => by cases isOk⟩

/-! ### Sending -/

/-- The next part is sent. -/
theorem sendPart_spec {number : Nat} {data : List UInt8} (positive : 1 ≤ number)
    (within : number ≤ staged.lastPart) (isPrefix : data <+: staged.part number) :
    Ensures staged.policy.serves (fun state => staged.Open state id number)
      (S3Fs.sendPart staged.bucket staged.key id number data)
      fun result after => staged.Sound after ∧
        (result = .ok () → data = staged.part number → staged.Open after id (number + 1)) := by
  apply ensures_bind fun result after => staged.Sound after ∧ ∀ etag, result = .ok etag →
    staged.Open after id number ∧ ∀ upload ∈ after.uploads, upload.Is staged.bucket staged.key id →
      (upload.parts.get? number).map StoredPart.data = some data
  · apply ensures_send
    intro before answer after isOpen served
    have stores {etag : String}
        (isStored : before.Stores after staged.bucket staged.key id number data etag) :
        staged.Open after id number ∧ ∀ upload ∈ after.uploads,
          upload.Is staged.bucket staged.key id →
            (upload.parts.get? number).map StoredPart.data = some data := by
      obtain ⟨_, modified, rfl⟩ := isStored
      refine ⟨⟨isOpen.sound.withPart isOpen.ready positive within isPrefix,
        known_withPart.mpr isOpen.known, isOpen.ready.withPart⟩, ?_⟩
      intro upload member named
      rw [stored_withPart upload member named]
      rfl
    cases answer with
    | ok etag => exact ⟨(stores served).1.sound, fun _ _ => stores served⟩
    | error err =>
      refine ⟨?_, fun etag isOk => by cases isOk⟩
      rcases served with rfl | ⟨etag, isStored⟩
      · exact isOpen.sound
      · exact (stores isStored).1.sound
  · intro etag
    apply ensures_send
    rintro before answer after ⟨_, facts⟩ ⟨rfl, rfl⟩
    obtain ⟨isOpen, isStored⟩ := facts etag rfl
    obtain ⟨isSound, isReady⟩ :=
      isOpen.sound.recording isOpen.ready positive within isPrefix isStored etag
    exact ⟨isSound, fun _ isPart => ⟨isSound, known_recording.mpr isOpen.known, isReady isPart⟩⟩
  · rintro err state ⟨sound, _⟩
    exact ⟨sound, fun isOk => by cases isOk⟩

end Staged

end Porthmos
