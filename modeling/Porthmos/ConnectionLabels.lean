import Mathlib.Data.List.Flatten
import Porthmos.ConnectionProfile

/-!
# Labels that are read again

Texts, groups and tags as they are written into a form, and what is made of them when the form is
read.  What was cleaned up once stays as it is, but for a tag that had more than one sign.
-/

namespace Porthmos

open StateFiles (isWhitespace isWhitespace_of_isDigit)

/-! ### Texts -/

theorem dropWhile_of_prefix {α : Type} {test : α → Bool} {initial whole : List α}
    (isPrefix : initial <+: whole) (stays : whole.dropWhile test = whole) :
    initial.dropWhile test = initial := by
  cases initial with
  | nil => rfl
  | cons first rest =>
    obtain ⟨more, rfl⟩ := isPrefix
    rw [List.cons_append] at stays
    cases holds : test first with
    | false => rw [List.dropWhile_cons, holds, if_neg Bool.false_ne_true]
    | true =>
      rw [List.dropWhile_cons, holds, if_pos rfl] at stays
      have shorter := (List.dropWhile_sublist (l := rest ++ more) test).length_le
      rw [stays, List.length_cons] at shorter
      omega

@[simp]
theorem trim_trim (text : String) : trim (trim text) = trim text := by
  unfold trim
  rw [String.toList_ofList, dropWhile_of_prefix (List.rdropWhile_prefix _ _)
    (List.dropWhile_idempotent _ _), List.rdropWhile_idempotent]

theorem trim_space (text : String) : trim (" " ++ text) = trim text := by
  unfold trim
  rw [String.toList_append]
  rfl

theorem mem_of_mem_trim {text : String} {char : Char} (member : char ∈ (trim text).toList) :
    char ∈ text.toList := by
  unfold trim at member
  rw [String.toList_ofList] at member
  exact (List.dropWhile_sublist _).mem ((List.rdropWhile_prefix _ _).mem member)

theorem mem_of_mem_stripStart {text : String} {first char : Char}
    (member : char ∈ (stripStart first text).toList) : char ∈ text.toList := by
  unfold stripStart at member
  split_ifs at member
  · rw [String.toList_ofList] at member
    exact List.mem_of_mem_tail member
  · exact member

theorem stripStart_of_ne {text : String} {char : Char} (another : text.toList.head? ≠ some char) :
    stripStart char text = text :=
  if_neg another

theorem parsePort_repr {port : Nat} (small : port < 65536) : parsePort port.repr = some port := by
  have digit {char : Char} (member : char ∈ port.repr.toList) : char.isDigit = true :=
    isDigit_of_mem_repr member
  have noSign : port.repr.toList.head? ≠ some '+' := by
    intro isSign
    exact absurd (digit (List.mem_of_mem_head? isSign)) (by decide)
  have value : Nat.ofDigitChars 10 port.repr.toList 0 = port := by
    rw [Nat.toList_repr, Nat.ofDigitChars_ten_toDigits]
  have notEmpty : port.repr.toList ≠ [] := by
    rw [Nat.toList_repr]
    exact Nat.toDigits_ne_nil
  unfold parsePort
  dsimp only
  rw [stripStart_of_ne noSign, value, if_pos ⟨notEmpty, List.all_eq_true.mpr fun _ => digit, small⟩]

theorem trim_of_forall {text : String} (none : ∀ char ∈ text.toList, isWhitespace char = false) :
    trim text = text := by
  have first : text.toList.dropWhile isWhitespace = text.toList := by
    cases isText : text.toList with
    | nil => rfl
    | cons char rest =>
      rw [isText] at none
      rw [List.dropWhile_cons, none char List.mem_cons_self, if_neg Bool.false_ne_true]
  unfold trim
  rw [first, List.rdropWhile_eq_self_iff.mpr, String.ofList_toList]
  intro notEmpty
  rw [none _ (List.getLast_mem notEmpty)]
  exact Bool.false_ne_true

theorem trim_repr (port : Nat) : trim port.repr = port.repr :=
  trim_of_forall fun _ member => isWhitespace_of_isDigit (isDigit_of_mem_repr member)

theorem splitAt_intercalate {texts : List String} {separator : Char} (notEmpty : texts ≠ [])
    (without : ∀ text ∈ texts, separator ∉ text.toList) :
    splitAt separator ((String.singleton separator).intercalate texts) = texts := by
  unfold splitAt
  rw [String.toList_intercalate, String.toList_singleton, List.splitOn_intercalate]
  · simp
  · intro letters member
    obtain ⟨text, isText, rfl⟩ := List.mem_map.mp member
    exact without text isText
  · simpa using notEmpty

theorem not_mem_of_mem_splitOn {text piece : List Char} {separator : Char}
    (member : piece ∈ text.splitOn separator) : separator ∉ piece := by
  induction text generalizing piece with
  | nil =>
    rw [List.splitOn_nil, List.mem_singleton] at member
    simp [member]
  | cons char text ih =>
    rw [List.splitOn_cons_eq_if_modifyHead] at member
    split_ifs at member with isSeparator
    · rcases List.mem_cons.mp member with rfl | later
      · exact List.not_mem_nil
      · exact ih later
    · cases split : text.splitOn separator with
      | nil => exact absurd split (List.splitOn_ne_nil _ _)
      | cons first rest =>
        rw [split, List.modifyHead_cons] at member
        rw [split] at ih
        rcases List.mem_cons.mp member with rfl | later
        · intro again
          rcases List.mem_cons.mp again with rfl | inFirst
          · exact isSeparator (beq_self_eq_true _)
          · exact ih List.mem_cons_self inFirst
        · exact ih (List.mem_cons_of_mem _ later)

theorem not_mem_of_mem_splitAt {text piece : String} {separator : Char}
    (member : piece ∈ splitAt separator text) : separator ∉ piece.toList := by
  obtain ⟨letters, isPiece, rfl⟩ := List.mem_map.mp member
  rw [String.toList_ofList]
  exact not_mem_of_mem_splitOn isPiece

/-! ### Groups -/

theorem normalizeGroup_segments {raw group : String} (isGroup : normalizeGroup raw = some group) :
    ∃ segments : List String, segments ≠ [] ∧ group = "/".intercalate segments ∧
      ∀ segment ∈ segments, segment ≠ "" ∧ trim segment = segment ∧ '/' ∉ segment.toList := by
  unfold normalizeGroup at isGroup
  dsimp only at isGroup
  split_ifs at isGroup with isEmpty
  cases isGroup
  refine ⟨_, isEmpty, rfl, fun segment member => ?_⟩
  obtain ⟨isSegment, notEmpty⟩ := List.mem_filter.mp member
  obtain ⟨piece, isPiece, rfl⟩ := List.mem_map.mp isSegment
  exact ⟨of_decide_eq_true notEmpty, trim_trim piece,
    fun separator => not_mem_of_mem_splitAt isPiece (mem_of_mem_trim separator)⟩

theorem normalizeGroup_of_some {raw group : String} (isGroup : normalizeGroup raw = some group) :
    normalizeGroup group = some group := by
  obtain ⟨segments, notEmpty, rfl, clean⟩ := normalizeGroup_segments isGroup
  have split : splitAt '/' ("/".intercalate segments) = segments :=
    splitAt_intercalate notEmpty fun segment member => (clean segment member).2.2
  have trimmed : segments.map trim = segments :=
    List.map_congr_left (fun segment member => (clean segment member).2.1) |>.trans (List.map_id _)
  have kept : segments.filter (fun segment => decide (segment ≠ "")) = segments :=
    List.filter_eq_self.mpr fun segment member => decide_eq_true (clean segment member).1
  unfold normalizeGroup
  dsimp only
  rw [split, trimmed, kept, if_neg notEmpty]

theorem normalizeGroup_getD (raw : String) :
    normalizeGroup (((normalizeGroup raw).bind normalizeGroup).getD "") = normalizeGroup raw := by
  cases isGroup : normalizeGroup raw with
  | none => decide
  | some group =>
    rw [Option.bind_some, normalizeGroup_of_some isGroup, Option.getD_some,
      normalizeGroup_of_some isGroup]

/-! ### Tags -/

section Tags

variable {lowercase : String → String}

/-- What is left of a tag when it is cleaned up. -/
structure CleanTag (tag : String) : Prop where
  notEmpty : tag ≠ ""
  trimmed : trim tag = tag
  noComma : ',' ∉ tag.toList

/-- Tags that were cleaned up together. -/
structure CleanTags (lowercase : String → String) (tags : List String) : Prop where
  clean : ∀ tag ∈ tags, CleanTag tag
  distinct : (tags.map lowercase).Nodup

theorem CleanTags.addTag {tags : List String} (clean : CleanTags lowercase tags) {raw : String}
    (noComma : ',' ∉ raw.toList) : CleanTags lowercase (addTag lowercase tags raw) := by
  unfold Porthmos.addTag
  dsimp only
  split_ifs with isNew
  · obtain ⟨notEmpty, differs⟩ := isNew
    constructor
    · intro tag member
      rcases List.mem_append.mp member with old | new
      · exact clean.clean tag old
      · obtain rfl := List.mem_singleton.mp new
        exact ⟨notEmpty, trim_trim _, fun comma => noComma
          (mem_of_mem_trim (mem_of_mem_stripStart (mem_of_mem_trim comma)))⟩
    · rw [List.map_append, List.nodup_append]
      refine ⟨clean.distinct, by simp, ?_⟩
      intro first isFirst second isSecond
      obtain ⟨kept, isKept, rfl⟩ := List.mem_map.mp isFirst
      obtain rfl : second = lowercase (tagText raw) := by simpa using isSecond
      simpa using List.all_eq_true.mp differs kept isKept
  · exact clean

theorem cleanTags_parseTags (lowercase : String → String) (raw : String) :
    CleanTags lowercase (parseTags lowercase raw) := by
  unfold parseTags normalizeTags
  have grows (pieces tags : List String) (noComma : ∀ piece ∈ pieces, ',' ∉ piece.toList)
      (clean : CleanTags lowercase tags) :
      CleanTags lowercase (pieces.foldl (Porthmos.addTag lowercase) tags) := by
    induction pieces generalizing tags with
    | nil => exact clean
    | cons piece rest ih =>
      have next := clean.addTag (noComma piece List.mem_cons_self)
      rw [List.foldl_cons]
      exact ih _ (fun other member => noComma other (List.mem_cons_of_mem _ member)) next
  exact grows _ [] (fun _ => not_mem_of_mem_splitAt)
    ⟨fun _ member => absurd member List.not_mem_nil, List.nodup_nil⟩

/-- Pieces that are the clean tags up to white space are read as the tags. -/
theorem foldl_addTag {tags pieces : List String}
    (same : pieces.map tagText = tags) (kept : List String)
    (clean : CleanTags lowercase (kept ++ tags)) :
    pieces.foldl (addTag lowercase) kept = kept ++ tags := by
  induction pieces generalizing kept tags with
  | nil =>
    cases same
    exact (List.append_nil kept).symm
  | cons piece pieces ih =>
    rw [List.map_cons] at same
    subst same
    have notEmpty := (clean.clean _ (List.mem_append_right _ List.mem_cons_self)).notEmpty
    have distinct := clean.distinct
    rw [List.map_append, List.nodup_append] at distinct
    have differs : kept.all (fun other => lowercase other ≠ lowercase (tagText piece)) = true := by
      rw [List.all_eq_true]
      intro other isKept
      exact decide_eq_true (distinct.2.2 _ (List.mem_map_of_mem isKept) _ List.mem_cons_self)
    have added : addTag lowercase kept piece = kept ++ [tagText piece] := by
      unfold addTag
      exact if_pos ⟨notEmpty, differs⟩
    have rest : CleanTags lowercase (kept ++ [tagText piece] ++ pieces.map tagText) := by
      rw [List.append_assoc]
      exact clean
    rw [List.foldl_cons, added, ih rfl _ rest, List.append_assoc]
    rfl

theorem tagText_of_clean {tag : String} (trimmed : trim tag = tag)
    (noSign : tag.toList.head? ≠ some '#') : tagText tag = tag := by
  unfold tagText
  rw [trimmed, stripStart_of_ne noSign, trimmed]

theorem normalizeTags_of_clean {tags : List String} (clean : CleanTags lowercase tags)
    (noSign : ∀ tag ∈ tags, tag.toList.head? ≠ some '#') :
    normalizeTags lowercase tags = tags := by
  have same : tags.map tagText = tags :=
    (List.map_congr_left fun tag member =>
      tagText_of_clean (clean.clean tag member).trimmed (noSign tag member)).trans (List.map_id _)
  exact foldl_addTag same [] clean

theorem intercalate_comma (tag : String) (rest : List String) :
    ", ".intercalate (tag :: rest) = ",".intercalate (tag :: rest.map (" " ++ ·)) := by
  induction rest generalizing tag with
  | nil => rfl
  | cons other rest ih =>
    have comma : ", " = "," ++ " " := by decide
    rw [List.map_cons, String.intercalate_cons_cons, String.intercalate_cons_cons, ih other,
      String.intercalate_cons_append, comma]
    simp only [String.append_assoc]

theorem parseTags_intercalate {tags : List String} (clean : CleanTags lowercase tags)
    (noSign : ∀ tag ∈ tags, tag.toList.head? ≠ some '#') :
    parseTags lowercase (", ".intercalate tags) = tags := by
  cases tags with
  | nil => rfl
  | cons tag rest =>
    have pieces : splitAt ',' (",".intercalate (tag :: rest.map (" " ++ ·))) =
        tag :: rest.map (" " ++ ·) := by
      apply splitAt_intercalate (List.cons_ne_nil _ _)
      intro piece member
      rcases List.mem_cons.mp member with rfl | later
      · exact (clean.clean _ List.mem_cons_self).noComma
      · obtain ⟨other, isOther, rfl⟩ := List.mem_map.mp later
        rw [String.toList_append, List.mem_append, not_or]
        exact ⟨by decide, (clean.clean _ (List.mem_cons_of_mem _ isOther)).noComma⟩
    have same : (tag :: rest.map (" " ++ ·)).map tagText = tag :: rest := by
      have read (other : String) (member : other ∈ tag :: rest) : tagText other = other :=
        tagText_of_clean (clean.clean other member).trimmed (noSign other member)
      rw [List.map_cons, List.map_map, read tag List.mem_cons_self]
      congr 1
      refine (List.map_congr_left fun other member => ?_).trans (List.map_id _)
      have spaced : tagText (" " ++ other) = tagText other := by
        unfold tagText
        rw [trim_space]
      exact spaced.trans (read other (List.mem_cons_of_mem _ member))
    unfold parseTags
    rw [intercalate_comma, pieces]
    exact foldl_addTag same [] clean

end Tags

end Porthmos
