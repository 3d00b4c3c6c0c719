import Mathlib.Data.List.Infix

/-!
# Lines of an output

A program ends each line that it prints with a line feed, and a reader takes a
carriage return before it for a part of the end.
-/

namespace Porthmos

namespace OutputLines

/-- A carriage return before the end of a line belongs to the end. -/
def chomp (line : List Char) : List Char :=
  if line.getLast? = some '\r' then line.dropLast else line

/-- `str::lines`, when `line` was read of the first line. -/
def linesFrom (line : List Char) : List Char → List (List Char)
  | [] => if line = [] then [] else [line]
  | char :: rest =>
    if char = '\n' then chomp line :: linesFrom [] rest else linesFrom (line ++ [char]) rest

theorem linesFrom_append (line text rest : List Char) :
    linesFrom line (text ++ '\n' :: rest) = linesFrom line (text ++ ['\n']) ++ linesFrom [] rest := by
  induction text generalizing line with
  | nil => simp [linesFrom]
  | cons char text ih =>
    simp only [List.cons_append, linesFrom]
    split_ifs
    · rw [ih, List.cons_append]
    · exact ih _

theorem linesFrom_of_not_mem {text : List Char} (noBreak : '\n' ∉ text) (line : List Char) :
    linesFrom line (text ++ ['\n']) = [chomp (line ++ text)] := by
  induction text generalizing line with
  | nil => simp [linesFrom]
  | cons char text ih =>
    rw [List.mem_cons, not_or] at noBreak
    have notBreak : char ≠ '\n' := fun isBreak => noBreak.1 isBreak.symm
    rw [List.cons_append, linesFrom, if_neg notBreak, ih noBreak.2]
    simp

theorem linesFrom_flatMap {lines : List (List Char)} (noBreak : ∀ line ∈ lines, '\n' ∉ line) :
    linesFrom [] (lines.flatMap fun line => line ++ ['\n']) = lines.map chomp := by
  induction lines with
  | nil => rfl
  | cons line lines ih =>
    rw [List.flatMap_cons, List.append_assoc, List.singleton_append, linesFrom_append,
      linesFrom_of_not_mem (noBreak line List.mem_cons_self),
      ih fun other member => noBreak other (List.mem_cons_of_mem _ member)]
    rfl

end OutputLines

end Porthmos
