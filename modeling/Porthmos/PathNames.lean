import Porthmos.PathInside

/-!
# Names in a path

A plain name stands for one component, and the names among the components of a path are plain.
-/

namespace Porthmos

/-- A text that names one component inside a path. -/
def PlainName (name : String) : Prop :=
  name ≠ "" ∧ '/' ∉ name.toList ∧ name ≠ "." ∧ name ≠ ".."

instance (name : String) : Decidable (PlainName name) := by
  unfold PlainName
  infer_instance

namespace Path

theorem segments_of_not_mem {name : String} (noSeparator : '/' ∉ name.toList) :
    (Path.mk name).segments = [name.toList] :=
  List.splitOn_eq_singleton noSeparator

theorem isAbsolute_of_not_mem {name : String} (noSeparator : '/' ∉ name.toList) :
    (Path.mk name).isAbsolute = false := by
  unfold isAbsolute
  rw [decide_eq_false_iff_not]
  intro first
  exact noSeparator (List.mem_of_head? first)

theorem bodyComponents_of_not_mem {name : String} (noSeparator : '/' ∉ name.toList) :
    (Path.mk name).bodyComponents = (bodyComponent name.toList).toList := by
  unfold bodyComponents
  rw [segments_of_not_mem noSeparator]
  cases found : bodyComponent name.toList <;> simp [found]

theorem bodyComponent_of_plain {name : String} (plain : PlainName name) :
    bodyComponent name.toList = some (.normal name) := by
  obtain ⟨notEmpty, -, notHere, notUp⟩ := plain
  unfold bodyComponent
  split_ifs with blank up
  · rcases blank with empty | here
    · exact absurd (String.toList_inj.mp empty) notEmpty
    · exact absurd (String.toList_inj.mp here) notHere
  · exact absurd (String.toList_inj.mp up) notUp
  · rw [String.ofList_toList]

end Path

theorem plain_of_bodyComponent {segment : List Char} {name : String} (noSeparator : '/' ∉ segment)
    (found : Path.bodyComponent segment = some (.normal name)) : PlainName name := by
  unfold Path.bodyComponent at found
  split_ifs at found with blank up
  · exact absurd (Option.some.inj found) (by simp)
  obtain ⟨notEmpty, notHere⟩ := not_or.mp blank
  have isName : (String.ofList segment).toList = segment := String.toList_ofList
  have differs (other : String) (same : String.ofList segment = other) :
      segment = other.toList := by
    rw [← same, isName]
  have plain : PlainName (String.ofList segment) := by
    refine ⟨fun same => notEmpty (differs "" same), ?_, fun same => notHere (differs "." same),
      fun same => up (differs ".." same)⟩
    rw [isName]
    exact noSeparator
  exact Component.normal.inj (Option.some.inj found) ▸ plain

theorem plain_of_mem_components {path : Path} {name : String}
    (member : .normal name ∈ path.components) : PlainName name := by
  have noSeparator (segment : List Char) (isSegment : segment ∈ path.segments) : '/' ∉ segment :=
    Path.not_mem_of_mem_segments isSegment
  unfold Path.components at member
  cases split : path.segments with
  | nil =>
    rw [split] at member
    cases member
  | cons first rest =>
    rw [split] at member noSeparator
    rcases List.mem_append.mp member with leads | follows
    · have isLeading := Option.mem_toList.mp leads
      unfold Path.leadingComponent at isLeading
      split_ifs at isLeading
      · cases isLeading
      · cases isLeading
      · exact plain_of_bodyComponent (noSeparator first List.mem_cons_self) isLeading
    · obtain ⟨segment, isSegment, found⟩ := List.mem_filterMap.mp follows
      exact plain_of_bodyComponent (noSeparator segment (List.mem_cons_of_mem _ isSegment)) found

theorem components_of_plain {name : String} (plain : PlainName name) :
    (Path.mk name).components = [.normal name] := by
  have notEmpty : name.toList ≠ [] := fun same => plain.1 (String.toList_inj.mp same)
  have notHere : name.toList ≠ ['.'] := fun same => plain.2.2.1 (String.toList_inj.mp same)
  have isName : Path.leadingComponent name.toList false = some (.normal name) := by
    unfold Path.leadingComponent
    rw [if_neg notEmpty, if_neg notHere, Path.bodyComponent_of_plain plain]
  rw [Path.components, Path.segments_of_not_mem plain.2.1]
  simp [Path.segmentComponents, isName]

theorem components_join_plain {base : Path} {name : String} (plain : PlainName name) :
    (base.join ⟨name⟩).components = base.components ++ [.normal name] := by
  have single : (Path.mk name).components = [name].map .normal := components_of_plain plain
  rw [Path.components_join_names single]
  rfl

theorem fileName_eq_some_iff {path : Path} {name : String} :
    path.fileName = some name ↔ path.components.getLast? = some (.normal name) := by
  unfold Path.fileName
  cases path.components.getLast? with
  | none => simp
  | some component => cases component <;> simp

end Porthmos
