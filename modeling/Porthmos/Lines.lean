import Mathlib.Data.List.Basic

/-!
# Lines on a connection

A sender ends each of its lines with a carriage return and a line feed.  A reader ends a line at
these two, and also at one of them alone, as many do.
-/

namespace Lines

def IsBreak (char : Char) : Prop := char = '\r' ∨ char = '\n'

instance (char : Char) : Decidable (IsBreak char) := inferInstanceAs (Decidable (_ ∨ _))

/-- One line, as far as the reader is concerned. -/
def NoBreak (text : List Char) : Prop := ∀ char ∈ text, ¬IsBreak char

instance (text : List Char) : Decidable (NoBreak text) :=
  List.decidableBAll (fun char => ¬IsBreak char) text

/-- The lines that have ended, and `line` is what was read of the first. -/
def readFrom (line : List Char) : List Char → List (List Char)
  | [] => []
  | '\r' :: '\n' :: rest => line :: readFrom [] rest
  | char :: rest =>
    if IsBreak char then line :: readFrom [] rest else readFrom (line ++ [char]) rest

def read (sent : List Char) : List (List Char) := readFrom [] sent

def send (text : List Char) : List Char := text ++ ['\r', '\n']

def sendAll (texts : List (List Char)) : List Char := (texts.map send).flatten

theorem noBreak_nil : NoBreak [] := by
  intro char member
  cases member

theorem noBreak_cons {char : Char} {text : List Char} :
    NoBreak (char :: text) ↔ ¬IsBreak char ∧ NoBreak text := List.forall_mem_cons

theorem noBreak_append {first second : List Char} :
    NoBreak (first ++ second) ↔ NoBreak first ∧ NoBreak second := by
  unfold NoBreak
  simp [or_imp, forall_and]

theorem readFrom_cons {char : Char} (plain : ¬IsBreak char) (line rest : List Char) :
    readFrom line (char :: rest) = readFrom (line ++ [char]) rest := by
  have notReturn : char ≠ '\r' := fun isReturn => plain (Or.inl isReturn)
  rw [readFrom]
  · exact if_neg plain
  · rintro later rfl
    exact absurd rfl notReturn

theorem readFrom_send {text : List Char} (clean : NoBreak text) (line rest : List Char) :
    readFrom line (send text ++ rest) = (line ++ text) :: readFrom [] rest := by
  induction text generalizing line with
  | nil => simp [send, readFrom]
  | cons char text ih =>
    obtain ⟨plain, later⟩ := List.forall_mem_cons.mp clean
    have goesOn := ih later (line ++ [char])
    change readFrom line (char :: (send text ++ rest)) = _
    rw [readFrom_cons plain, goesOn]
    simp

/-- No line that is read has a break. -/
theorem noBreak_of_mem_readFrom {line text : List Char} {sent : List Char} (clean : NoBreak line)
    (member : text ∈ readFrom line sent) : NoBreak text := by
  induction line, sent using readFrom.induct with
  | case1 line => cases member
  | case2 line rest ih =>
    rw [readFrom] at member
    rcases List.mem_cons.mp member with rfl | later
    · exact clean
    · exact ih noBreak_nil later
  | case3 line char rest notBoth isBreak ih =>
    rw [readFrom, if_pos isBreak] at member
    · rcases List.mem_cons.mp member with rfl | later
      · exact clean
      · exact ih noBreak_nil later
    · exact notBoth
  | case4 line char rest notBoth plain ih =>
    rw [readFrom, if_neg plain] at member
    · apply ih _ member
      rw [noBreak_append]
      exact ⟨clean, List.forall_mem_singleton.mpr plain⟩
    · exact notBoth

theorem read_sendAll_iff (texts : List (List Char)) :
    read (sendAll texts) = texts ↔ ∀ text ∈ texts, NoBreak text := by
  constructor
  · intro same text member
    rw [← same] at member
    exact noBreak_of_mem_readFrom noBreak_nil member
  · intro clean
    induction texts with
    | nil => rfl
    | cons text texts ih =>
      obtain ⟨here, later⟩ := List.forall_mem_cons.mp clean
      change readFrom [] (send text ++ sendAll texts) = _
      rw [readFrom_send here]
      exact congrArg (text :: ·) (ih later)

end Lines
