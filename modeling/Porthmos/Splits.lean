import Mathlib.Data.List.Infix

/-!
# Splitting a text once

A text is split at the first occurrence of a separator.  What was joined with
the separator is split apart again when the separator begins nowhere before.
-/

namespace Splits

variable {α : Type} [DecidableEq α]

/-- `str::split_once`: what stands before and after the first occurrence. -/
def splitOnce (separator : List α) : List α → Option (List α × List α)
  | [] => if separator = [] then some ([], []) else none
  | first :: rest =>
    if separator.isPrefixOf (first :: rest) then
      some ([], (first :: rest).drop separator.length)
    else (splitOnce separator rest).map fun parts => (first :: parts.1, parts.2)

/-- The first occurrence is the one that was written, if the separator begins
nowhere before it. -/
theorem splitOnce_append {separator before : List α} (notEmpty : separator ≠ [])
    (earlier : ∀ ending, ending <:+ before → ending ≠ [] →
      ¬ separator <+: ending ++ separator) (after : List α) :
    splitOnce separator (before ++ separator ++ after) = some (before, after) := by
  induction before with
  | nil =>
    cases separator with
    | nil => exact absurd rfl notEmpty
    | cons first separator =>
      have isHere : (first :: separator).isPrefixOf (first :: separator ++ after) = true :=
        List.isPrefixOf_iff_prefix.mpr (List.prefix_append _ _)
      rw [List.nil_append, List.cons_append, splitOnce, ← List.cons_append, if_pos isHere]
      simp
  | cons first before ih =>
    have notHere : separator.isPrefixOf (first :: before ++ separator ++ after) = false := by
      by_contra isHere
      rw [Bool.not_eq_false, List.isPrefixOf_iff_prefix] at isHere
      apply earlier (first :: before) List.suffix_rfl (by simp)
      refine List.prefix_of_prefix_length_le isHere (List.prefix_append _ _) ?_
      simp only [List.length_append, List.length_cons]
      omega
    have rest := ih fun ending isSuffix =>
      earlier ending (isSuffix.trans (List.suffix_cons first before))
    rw [List.cons_append, List.cons_append] at notHere ⊢
    rw [splitOnce, notHere, rest]
    exact rfl

theorem splitOnce_append_cons {separator : α} {before : List α} (absent : separator ∉ before)
    (after : List α) :
    splitOnce [separator] (before ++ separator :: after) = some (before, after) := by
  have split : splitOnce [separator] (before ++ [separator] ++ after) = some (before, after) := by
    apply splitOnce_append (by simp)
    intro ending isSuffix endingNotEmpty isPrefix
    cases ending with
    | nil => exact endingNotEmpty rfl
    | cons first ending =>
      have isFirst : separator = first := (List.cons_prefix_cons.mp isPrefix).1
      exact absent (isSuffix.subset (by simp [isFirst]))
  simpa using split

theorem splitOnce_eq_none {separator text : List α} (notEmpty : separator ≠ [])
    (absent : ¬ separator <:+: text) : splitOnce separator text = none := by
  induction text with
  | nil => simp [splitOnce, notEmpty]
  | cons first text ih =>
    have notHere : separator.isPrefixOf (first :: text) = false := by
      by_contra isHere
      rw [Bool.not_eq_false, List.isPrefixOf_iff_prefix] at isHere
      exact absent isHere.isInfix
    have restAbsent : ¬ separator <:+: text := fun isInfix =>
      absent (isInfix.trans (List.suffix_cons first text).isInfix)
    rw [splitOnce, notHere, ih restAbsent]
    exact rfl

end Splits
