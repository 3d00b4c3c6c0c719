import Porthmos.SaveResults

/-!
# The list of connections

Stored profiles, the hosts that the protocols find in the settings of other programs and the labels
that were given to such hosts are put into one list.  Each of them is in it once, and labels are at
the host of their name, or at an entry of their own.
-/

namespace Porthmos

/-- A host with the protocol that found it. -/
abbrev FoundHost := String × Target

/-! ### What is in the list -/

section Entries

variable (lowercase : String → String) (protocols : List RegisteredProtocol)

def profileEntry (profile : ConnectionProfile) : ConnectionEntry :=
  (ConnectionEntry.fromProfile profile (defaultPortFor protocols profile.protocol)).normalized
    lowercase

def labelledHost (record : Labels) (found : FoundHost) : ConnectionEntry :=
  { ConnectionEntry.discovered found.1 found.2 with
    group := record.group.bind normalizeGroup
    tags := normalizeTags lowercase record.tags
    savedPassword := record.inKeyring.any fun marker => marker = passwordMarker
    inKeyring := record.inKeyring }

/-- A host with the labels of its name. -/
def hostEntry (labels : List (String × Labels)) (found : FoundHost) : ConnectionEntry :=
  labelledHost lowercase ((labels.lookup found.2.name).getD ⟨none, [], []⟩) found

/-- The entry of labels without a listed host. -/
def orphanEntry (discovered : List FoundHost) (label : String × Labels) : ConnectionEntry :=
  (ConnectionEntry.orphanLabels label.1 label.2
    (if discovered.any fun found => found.2.name = label.1 then .shadowedSshHost
      else .missingSshHost)).normalized lowercase

/-- The hosts that are listed: the first one of each name that no profile has. -/
structure ListedHosts (profiles : List ConnectionProfile) (discovered hosts : List FoundHost) :
    Prop where
  once : (hosts.map fun found => found.2.name).Nodup
  isFirst : ∀ found, found ∈ hosts ↔
    (discovered.find? fun other => other.2.name = found.2.name) = some found ∧
      ∀ profile ∈ profiles, profile.name ≠ found.2.name

/-- A list of every profile, every listed host with its labels, and all other labels. -/
structure Merged (profiles : List ConnectionProfile) (discovered hosts : List FoundHost)
    (labels : List (String × Labels)) (entries : List ConnectionEntry) : Prop where
  listed : ListedHosts profiles discovered hosts
  labelled : ∀ label ∈ labels, ∀ found ∈ hosts, found.2.name = label.1 →
    hostEntry lowercase labels found = labelledHost lowercase label.2 found
  all : entries.Perm (profiles.map (profileEntry lowercase protocols) ++
    hosts.map (hostEntry lowercase labels) ++
      (labels.filter fun label => !hosts.any fun found => found.2.name = label.1).map
        (orphanEntry lowercase discovered))
  sorted : entries.Pairwise fun first second => lowercase first.name ≤ lowercase second.name

end Entries

/-! ### Finding hosts -/

/-- What `list_all` has when it has gone through some hosts. -/
structure FoundSoFar (profiles : List ConnectionProfile) (start : List ConnectionEntry)
    (discovered hosts : List FoundHost) (found : Discovery) : Prop where
  listed : ListedHosts profiles discovered hosts
  entries : found.entries = start ++ hosts.map fun host => .discovered host.1 host.2
  shadowed : ∀ name, (hosts.all fun host => host.2.name ≠ name) →
    (name ∈ found.shadowed ↔ ∃ host ∈ discovered, host.2.name = name)

section Finding

variable {profiles : List ConnectionProfile} {start : List ConnectionEntry}
  {discovered hosts : List FoundHost} {found : Discovery}

theorem FoundSoFar.isKnown (isFound : FoundSoFar profiles start discovered hosts found)
    (sameNames : start.map ConnectionEntry.name = profiles.map ConnectionProfile.name)
    (name : String) : (found.entries.any fun entry => entry.name = name) = true ↔
      (∃ profile ∈ profiles, profile.name = name) ∨ ∃ host ∈ hosts, host.2.name = name := by
  have isProfile : (∃ entry ∈ start, entry.name = name) ↔
      ∃ profile ∈ profiles, profile.name = name := by
    rw [← List.mem_map, sameNames, List.mem_map]
  rw [isFound.entries, List.any_append, Bool.or_eq_true, List.any_eq_true, List.any_eq_true,
    ← isProfile]
  simp [ConnectionEntry.discovered]

theorem FoundSoFar.add (isFound : FoundSoFar profiles start discovered hosts found)
    (sameNames : start.map ConnectionEntry.name = profiles.map ConnectionProfile.name)
    (protocol : String) (target : Target) :
    ∃ more, FoundSoFar profiles start (discovered ++ [(protocol, target)]) more
      (found.add protocol target) := by
  have isKnown := isFound.isKnown sameNames target.name
  have findAppend (name : String) : ((discovered ++ [(protocol, target)]).find?
      fun other => other.2.name = name) = (discovered.find? fun other => other.2.name = name).or
        (if target.name = name then some (protocol, target) else none) := by
    rw [List.find?_append, List.find?_singleton]
    simp
  by_cases known : (found.entries.any fun entry => entry.name = target.name) = true
  · have isAdd : found.add protocol target =
        { found with shadowed := found.shadowed ++ [target.name] } := by
      rw [Discovery.add, if_pos known]
    rw [isAdd]
    refine ⟨hosts, ⟨isFound.listed.once, fun host => ?_⟩, isFound.entries, fun name notListed => ?_⟩
    · rw [isFound.listed.isFirst, findAppend]
      constructor
      · rintro ⟨isFirst, noProfile⟩
        exact ⟨by rw [isFirst, Option.some_or], noProfile⟩
      · rintro ⟨isFirst, noProfile⟩
        refine ⟨?_, noProfile⟩
        cases isBefore : discovered.find? fun other => other.2.name = host.2.name with
        | some other =>
          rw [isBefore, Option.some_or] at isFirst
          exact isFirst
        | none =>
          rw [isBefore, Option.none_or] at isFirst
          split_ifs at isFirst with sameName
          rcases isKnown.mp known with ⟨profile, isIn, isName⟩ | ⟨other, isIn, isName⟩
          · exact absurd (isName.trans sameName) (noProfile profile isIn)
          · have isFirstToo := ((isFound.listed.isFirst other).mp isIn).1
            rw [isName, sameName, isBefore] at isFirstToo
            cases isFirstToo
    · rw [List.mem_append, isFound.shadowed name notListed, List.mem_singleton]
      simp only [List.mem_append, List.mem_singleton, or_and_right, exists_or, exists_eq_left]
      exact or_congr_right eq_comm
  · have isAdd : found.add protocol target =
        { found with entries := found.entries ++ [.discovered protocol target] } := by
      rw [Discovery.add, if_neg known]
    rw [isAdd]
    rw [isKnown, not_or] at known
    obtain ⟨noProfile, noHost⟩ := known
    -- a host with this name that was found before would be listed
    have isNew : discovered.find? (fun other => other.2.name = target.name) = none := by
      by_contra isSome
      obtain ⟨first, isFirst⟩ := Option.ne_none_iff_exists'.mp isSome
      have sameName : first.2.name = target.name := by simpa using List.find?_some isFirst
      apply noHost
      refine ⟨first, (isFound.listed.isFirst first).mpr ⟨sameName ▸ isFirst, ?_⟩, sameName⟩
      intro profile isIn isName
      exact noProfile ⟨profile, isIn, isName.trans sameName⟩
    refine ⟨hosts ++ [(protocol, target)], ⟨?_, fun host => ?_⟩, ?_, fun name notListed => ?_⟩
    · rw [List.map_append, List.nodup_append]
      refine ⟨isFound.listed.once, List.nodup_singleton _, ?_⟩
      rintro name isName _ isTarget rfl
      obtain ⟨host, isIn, isHost⟩ := List.mem_map.mp isName
      exact noHost ⟨host, isIn, isHost.trans (List.mem_singleton.mp isTarget)⟩
    · rw [List.mem_append, List.mem_singleton, findAppend, isFound.listed.isFirst]
      constructor
      · rintro (⟨isFirst, noProfile⟩ | rfl)
        · exact ⟨by rw [isFirst, Option.some_or], noProfile⟩
        · refine ⟨by rw [isNew, Option.none_or, if_pos rfl], ?_⟩
          intro profile isIn isName
          exact noProfile ⟨profile, isIn, isName⟩
      · rintro ⟨isFirst, noProfile⟩
        cases isBefore : discovered.find? fun other => other.2.name = host.2.name with
        | some other =>
          rw [isBefore, Option.some_or] at isFirst
          exact .inl ⟨isFirst, noProfile⟩
        | none =>
          rw [isBefore, Option.none_or] at isFirst
          split_ifs at isFirst
          exact .inr (Option.some_inj.mp isFirst).symm
    · rw [isFound.entries, List.map_append, List.append_assoc]
      rfl
    · rw [List.all_append, Bool.and_eq_true] at notListed
      have notTarget : target.name ≠ name := by simpa using notListed.2
      rw [isFound.shadowed name notListed.1]
      simp only [List.mem_append, List.mem_singleton, or_and_right, exists_or, exists_eq_left,
        notTarget, or_false]

theorem exists_foundSoFar (sameNames : start.map ConnectionEntry.name =
    profiles.map ConnectionProfile.name) (discovered : List FoundHost) :
    ∃ hosts, FoundSoFar profiles start discovered hosts
      (discovered.foldl (fun found host => found.add host.1 host.2) ⟨start, []⟩) := by
  induction discovered using List.reverseRecOn with
  | nil => refine ⟨[], ⟨List.nodup_nil, by simp⟩, by simp, by simp⟩
  | append_singleton discovered host ih =>
    obtain ⟨hosts, isFound⟩ := ih
    rw [List.foldl_append]
    exact isFound.add sameNames host.1 host.2

end Finding

/-! ### The list -/

section Listing

variable {lowercase : String → String} {protocols : List RegisteredProtocol}

/-- What all protocols find, with their ids. -/
def allTargets (targets : RegisteredProtocol → List Target) (protocols : List RegisteredProtocol) :
    List FoundHost :=
  protocols.flatMap fun protocol => (targets protocol).map fun target => (protocol.info.id, target)

theorem discoverAll_eq {discover : RegisteredProtocol → Except String (List Target)}
    {targets : RegisteredProtocol → List Target} (found : Discovery)
    (finds : ∀ protocol ∈ protocols, discover protocol = .ok (targets protocol)) :
    discoverAll discover found protocols = .ok ((allTargets targets protocols).foldl
      (fun found host => found.add host.1 host.2) found) := by
  induction protocols generalizing found with
  | nil => rfl
  | cons protocol protocols ih =>
    obtain ⟨isFirst, rest⟩ := List.forall_mem_cons.mp finds
    have further := ih ((targets protocol).foldl (.add protocol.info.id) found) rest
    rw [discoverAll] at further ⊢
    rw [List.foldlM_cons, isFirst, allTargets, List.flatMap_cons, List.foldl_append, List.foldl_map]
    exact further

theorem normalized_labelled_discovered (labels : List (String × Labels)) (found : FoundHost) :
    ((ConnectionEntry.discovered found.1 found.2).labelled labels).normalized lowercase =
      hostEntry lowercase labels found := by
  unfold ConnectionEntry.labelled hostEntry labelledHost
  have isName : (ConnectionEntry.discovered found.1 found.2).name = found.2.name := rfl
  have isSource : (ConnectionEntry.discovered found.1 found.2).source = .sshConfig := rfl
  rw [isName, isSource]
  cases labels.lookup found.2.name <;> rfl

theorem labelled_fromProfile (labels : List (String × Labels)) (profile : ConnectionProfile)
    (port : Nat) : (ConnectionEntry.fromProfile profile port).labelled labels =
      ConnectionEntry.fromProfile profile port := by
  unfold ConnectionEntry.labelled
  rfl

theorem merged_listEntries {profiles : List ConnectionProfile} {discovered hosts : List FoundHost}
    {found : Discovery} (isFound : FoundSoFar profiles (profiles.map fun profile =>
      ConnectionEntry.fromProfile profile (defaultPortFor protocols profile.protocol))
        discovered hosts found) {labels : List (String × Labels)}
    (distinct : (labels.map Prod.fst).Nodup) :
    Merged lowercase protocols profiles discovered hosts labels
      (listEntries lowercase found labels) where
  listed := isFound.listed
  labelled := by
    intro label isLabel host _ sameName
    have isRecord := (lookup_eq_some_iff distinct).mpr isLabel
    rw [hostEntry, sameName, isRecord, Option.getD_some]
  all := by
    have areHosts : (found.entries.filter fun entry => entry.source = .sshConfig) =
        hosts.map fun host => .discovered host.1 host.2 := by
      rw [isFound.entries, List.filter_append, List.filter_eq_nil_iff.mpr, List.nil_append,
        List.filter_eq_self.mpr]
      · intro entry isIn
        obtain ⟨host, -, rfl⟩ := List.mem_map.mp isIn
        rfl
      · intro entry isIn
        obtain ⟨profile, -, rfl⟩ := List.mem_map.mp isIn
        simp [ConnectionEntry.fromProfile]
    have isListed (name : String) : ((hosts.map fun host =>
        ConnectionEntry.discovered host.1 host.2).any fun entry => entry.name = name) =
          hosts.any fun host => host.2.name = name := by
      rw [List.any_map]
      rfl
    unfold listEntries
    dsimp only
    refine (List.perm_insertionSort ..).trans ?_
    rw [areHosts, isFound.entries, List.map_append, List.map_append, List.map_append]
    apply List.Perm.append
    · apply List.Perm.of_eq
      congr 1
      · rw [List.map_map, List.map_map]
        apply List.map_congr_left
        intro profile _
        rw [Function.comp_apply, Function.comp_apply, labelled_fromProfile, profileEntry]
      · rw [List.map_map, List.map_map]
        apply List.map_congr_left
        intro host _
        rw [Function.comp_apply, Function.comp_apply, normalized_labelled_discovered]
    · have sameLabels : ((sortFields labels).filter fun label => !(hosts.map fun host =>
          ConnectionEntry.discovered host.1 host.2).any fun entry => entry.name = label.1).Perm
            (labels.filter fun label => !hosts.any fun host => host.2.name = label.1) := by
        simp only [isListed]
        exact (List.perm_insertionSort ..).filter _
      rw [List.map_map]
      refine (sameLabels.map _).trans (List.Perm.of_eq ?_)
      apply List.map_congr_left
      intro label isIn
      have notListed : (hosts.all fun host => host.2.name ≠ label.1) = true := by
        simpa using (List.mem_filter.mp isIn).2
      have isShadowed := isFound.shadowed label.1 notListed
      rw [Function.comp_apply, orphanEntry]
      congr 2
      apply if_congr
      · simpa using isShadowed
      · rfl
      · rfl
  sorted := by
    have total : Std.Total fun first second : ConnectionEntry =>
        lowercase first.name ≤ lowercase second.name := ⟨fun _ _ => le_total _ _⟩
    have transitive : IsTrans ConnectionEntry fun first second =>
        lowercase first.name ≤ lowercase second.name := ⟨fun _ _ _ below above => below.trans above⟩
    exact List.pairwise_insertionSort ..

end Listing

/-! ### What is loaded and found -/

section Loading

variable {env : Saving} {files : FileContents} {file : ConfigFile}
  {targets : RegisteredProtocol → List Target}

/-- The list, when both reads of the file succeed and every protocol finds its hosts. -/
theorem allProfiles_merges {profilesStep labelsStep : SaveStep}
    (profilesRead : readConfigFile env.format env.path (env.faults profilesStep) files = .ok file)
    (labelsRead : readConfigFile env.format env.path (env.faults labelsStep) files = .ok file)
    (distinct : (file.sshHosts.map Prod.fst).Nodup)
    (finds : ∀ protocol ∈ env.protocols,
      env.discover profilesStep protocol = .ok (targets protocol)) :
    ∃ entries hosts, env.allProfiles profilesStep labelsStep files = .ok entries ∧
      Merged env.lowercase env.protocols file.profiles (allTargets targets env.protocols) hosts
        file.sshHosts entries := by
  have areProfiles : loadProfiles env.format env.path (env.faults profilesStep) files =
      .ok file.profiles := by
    rw [loadProfiles, profilesRead]
    rfl
  have areLabels : loadSshLabels env.format env.path (env.faults labelsStep) files =
      .ok file.sshHosts := by
    rw [loadSshLabels, labelsRead]
    rfl
  have sameNames : (file.profiles.map fun profile => ConnectionEntry.fromProfile profile
      (defaultPortFor env.protocols profile.protocol)).map ConnectionEntry.name =
        file.profiles.map ConnectionProfile.name := by
    rw [List.map_map]
    rfl
  obtain ⟨hosts, isFound⟩ := exists_foundSoFar sameNames (allTargets targets env.protocols)
  refine ⟨_, hosts, ?_, merged_listEntries isFound distinct⟩
  rw [Saving.allProfiles, bind_eq_ok]
  refine ⟨_, areProfiles, ?_⟩
  rw [bind_eq_ok]
  refine ⟨_, discoverAll_eq _ finds, ?_⟩
  rw [areLabels]
  rfl

def sampleTarget : Target := ⟨"nas", "10.0.0.7", 22, "ann", none, []⟩

open Saving in
/-- A profile, and a host that the protocol finds twice. -/
theorem allProfiles_merges_sample : ∃ entries hosts,
    ({ sampleSaving with discover := fun _ _ => .ok [sampleTarget, sampleTarget] } :
        Saving).allProfiles .profilesAfter .labelsAfter sampleFiles = .ok entries ∧
      Merged id sampleSaving.protocols sampleFile.profiles
        (allTargets (fun _ => [sampleTarget, sampleTarget]) sampleSaving.protocols) hosts
          sampleFile.sshHosts entries :=
  allProfiles_merges (read_sample rfl) (read_sample rfl) List.nodup_nil fun _ _ => rfl

end Loading

end Porthmos
