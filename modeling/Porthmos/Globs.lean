import Mathlib.Data.List.TakeWhile
import Porthmos.Listing

/-!
# Patterns with wildcards

A pattern with `*` and `?` is matched against a name by a loop that goes back to its last star only.
A star of the pattern that meets a star of the name is taken for an ordinary character, so that the
loop is right where one of the two has no star.
-/

namespace Porthmos

/-! ### What a pattern means -/

namespace Glob

/-- The pieces of a name that a character of a pattern stands for. -/
def Stands (char : Char) (piece : List Char) : Prop :=
  if char = '*' then True else if char = '?' then piece.length = 1 else piece = [char]

/-- The name can be cut into pieces, one for each character of the pattern. -/
def Matches (pattern name : List Char) : Prop :=
  ∃ pieces : List (List Char), pieces.flatten = name ∧ List.Forall₂ Stands pattern pieces

variable {char : Char} {pattern name : List Char}

theorem matches_nil : Matches [] name ↔ name = [] := by
  constructor
  · rintro ⟨pieces, rfl, stand⟩
    cases stand
    rfl
  · rintro rfl
    exact ⟨[], rfl, .nil⟩

theorem matches_cons : Matches (char :: pattern) name ↔
    ∃ piece rest, name = piece ++ rest ∧ Stands char piece ∧ Matches pattern rest := by
  constructor
  · rintro ⟨pieces, rfl, stand⟩
    cases stand with
    | cons stands stand => exact ⟨_, _, rfl, stands, _, rfl, stand⟩
  · rintro ⟨piece, _, rfl, stands, pieces, rfl, stand⟩
    exact ⟨piece :: pieces, rfl, .cons stands stand⟩

theorem matches_star :
    Matches ('*' :: pattern) name ↔ ∃ count, Matches pattern (name.drop count) := by
  rw [matches_cons]
  constructor
  · rintro ⟨piece, rest, rfl, -, isMatch⟩
    exact ⟨piece.length, by simpa using isMatch⟩
  · rintro ⟨count, isMatch⟩
    exact ⟨name.take count, name.drop count, (List.take_append_drop count name).symm,
      by simp [Stands], isMatch⟩

theorem matches_of_ne (notStar : char ≠ '*') : Matches (char :: pattern) name ↔
    ∃ first rest, name = first :: rest ∧ (char = '?' ∨ char = first) ∧ Matches pattern rest := by
  rw [matches_cons]
  simp only [Stands, if_neg notStar]
  constructor
  · rintro ⟨piece, rest, rfl, stands, isMatch⟩
    by_cases isAny : char = '?'
    · rw [if_pos isAny] at stands
      obtain ⟨first, rfl⟩ := List.length_eq_one_iff.mp stands
      exact ⟨first, rest, rfl, .inl isAny, isMatch⟩
    · rw [if_neg isAny] at stands
      exact ⟨char, rest, by simp [stands], .inr rfl, isMatch⟩
  · rintro ⟨first, rest, rfl, stands, isMatch⟩
    refine ⟨[first], rest, rfl, ?_, isMatch⟩
    split_ifs with isAny
    · rfl
    · rw [stands.resolve_left isAny]

theorem matches_empty : Matches pattern [] ↔ ∀ char ∈ pattern, char = '*' := by
  induction pattern with
  | nil => simp [matches_nil]
  | cons char pattern ih =>
    by_cases isStar : char = '*'
    · subst isStar
      simp [matches_star, ih]
    · simp [matches_of_ne isStar, isStar]

theorem drop_of_matches {fixed : List Char} (noStar : '*' ∉ fixed)
    (isMatch : Matches (fixed ++ pattern) name) :
    fixed.length ≤ name.length ∧ Matches pattern (name.drop fixed.length) := by
  induction fixed generalizing name with
  | nil => exact ⟨Nat.zero_le _, isMatch⟩
  | cons char fixed ih =>
    have notStar : char ≠ '*' := by
      rintro rfl
      simp at noStar
    obtain ⟨first, rest, rfl, -, further⟩ := (matches_of_ne notStar).mp isMatch
    have := ih (fun inside => noStar (List.mem_cons_of_mem _ inside)) further
    simpa using this

theorem length_of_matches (noStar : '*' ∉ pattern) (isMatch : Matches pattern name) :
    name.length = pattern.length := by
  rw [← List.append_nil pattern] at isMatch
  have ⟨short, rest⟩ := drop_of_matches noStar isMatch
  have long := List.drop_eq_nil_iff.mp (matches_nil.mp rest)
  omega

end Glob

/-! ### The loop -/

/-- Where the loop of `match_from` stands: in the pattern, in the name, and at the last star, where
the name goes on after what the star has taken so far. -/
structure GlobCursor where
  p : Nat
  n : Nat
  star : Option (Nat × Nat)
  behind : ∀ saved ∈ star, saved.2 ≤ n

namespace GlobCursor

def start : GlobCursor := ⟨0, 0, none, nofun⟩

/-- A character of the pattern and of the name are left behind. -/
def advance (cursor : GlobCursor) : GlobCursor :=
  ⟨cursor.p + 1, cursor.n + 1, cursor.star, fun saved isStar =>
    Nat.le_succ_of_le (cursor.behind saved isStar)⟩

/-- A star of the pattern, which takes nothing yet. -/
def enterStar (cursor : GlobCursor) : GlobCursor :=
  ⟨cursor.p + 1, cursor.n, some (cursor.p, cursor.n), by simp⟩

/-- The last star takes one more. -/
def retry (starP starN : Nat) : GlobCursor :=
  ⟨starP + 1, starN + 1, some (starP, starN + 1), by simp⟩

end GlobCursor

/-- Whether the characters at two places of a pattern and a name go together. -/
def charsMatch (pattern name : List Char) (p n : Nat) : Bool :=
  match pattern[p]? with
  | some char => char = '?' ∨ some char = name[n]?
  | none => false

/-- The end of `match_from`: only stars are left. -/
def onlyStars (pattern : List Char) (p : Nat) : Bool :=
  p + ((pattern.drop p).takeWhile fun char => char = '*').length = pattern.length

/-- The loop of `match_from`, to its end. -/
def matchLoop (pattern name : List Char) (cursor : GlobCursor) : Bool :=
  if inName : cursor.n < name.length then
    if charsMatch pattern name cursor.p cursor.n then matchLoop pattern name cursor.advance
    else if isStar : pattern[cursor.p]? = some '*' then matchLoop pattern name cursor.enterStar
    else
      match saved : cursor.star with
      | some (starP, starN) => matchLoop pattern name (.retry starP starN)
      | none => false
  else onlyStars pattern cursor.p
termination_by (name.length + 1 - (cursor.star.map fun saved => saved.2 + 1).getD 0,
  (name.length - cursor.n) + (pattern.length - cursor.p))
decreasing_by
  · apply Prod.Lex.right
    simp only [GlobCursor.advance]
    omega
  · have short : cursor.p < pattern.length := (List.getElem?_eq_some_iff.mp isStar).1
    have behind := cursor.behind
    rcases cursor with ⟨p, n, _ | ⟨starP, starN⟩, _⟩
    · apply Prod.Lex.left
      simp only [GlobCursor.enterStar, Option.map_some, Option.map_none, Option.getD_some,
        Option.getD_none]
      omega
    · have isBehind : starN ≤ n := behind _ rfl
      rcases Nat.lt_or_eq_of_le isBehind with further | rfl
      · apply Prod.Lex.left
        simp only [GlobCursor.enterStar, Option.map_some, Option.getD_some]
        dsimp only at inName
        omega
      · apply Prod.Lex.right
        simp only [GlobCursor.enterStar]
        dsimp only at short
        omega
  · have isBehind : starN ≤ cursor.n := cursor.behind _ saved
    apply Prod.Lex.left
    simp only [GlobCursor.retry, saved, Option.map_some, Option.getD_some]
    omega

namespace Glob

variable {pattern name : List Char} {cursor : GlobCursor}

/-- The rest of the pattern matches the rest of the name. -/
def Here (pattern name : List Char) (p n : Nat) : Prop := Matches (pattern.drop p) (name.drop n)

/-- The last star can take more than it has. -/
def Later (pattern name : List Char) (cursor : GlobCursor) : Prop :=
  ∃ saved, cursor.star = some saved ∧ ∃ further, saved.2 < further ∧
    Here pattern name (saved.1 + 1) further

theorem onlyStars_iff {p : Nat} : onlyStars pattern p = true ↔
    p ≤ pattern.length ∧ Matches (pattern.drop p) [] := by
  have length : (pattern.drop p).length = pattern.length - p := List.length_drop
  have taken := List.takeWhile_prefix (fun char => decide (char = '*')) (l := pattern.drop p)
  have short := taken.length_le
  rw [matches_empty]
  simp only [onlyStars, decide_eq_true_eq]
  constructor
  · intro whole
    refine ⟨by omega, fun char member => ?_⟩
    rw [← taken.eq_of_length (by omega)] at member
    simpa using List.mem_takeWhile_imp member
  · rintro ⟨inPattern, stars⟩
    rw [List.takeWhile_eq_self_iff.mpr (by simpa using stars)]
    omega

theorem onlyStars_eq {p : Nat} (inPattern : p ≤ pattern.length) : onlyStars pattern p =
    (pattern.drop p).all fun char => decide (char = '*') := by
  rw [Bool.eq_iff_iff, onlyStars_iff, matches_empty]
  simp [inPattern]

theorem charsMatch_iff {p n : Nat} : charsMatch pattern name p n = true ↔
    pattern[p]? = some '?' ∨ p < pattern.length ∧ pattern[p]? = name[n]? := by
  unfold charsMatch
  cases isChar : pattern[p]? with
  | none =>
    have long := List.getElem?_eq_none_iff.mp isChar
    simp [Nat.not_lt.mpr long]
  | some char =>
    have short := (List.getElem?_eq_some_iff.mp isChar).1
    simp [short]

/-- How many rounds the loop goes on at most. -/
def roundsLeft (pattern name : List Char) (cursor : GlobCursor) : Nat :=
  (name.length - (cursor.star.map Prod.snd).getD 0) * (pattern.length + 1) +
    (pattern.length - cursor.p) + 1

/-- The loop ends within so many rounds: between two of its ways back it only goes on in the
pattern, and each way back leaves a character of the name behind. -/
theorem matchRounds_eq {rounds : Nat} (inPattern : cursor.p ≤ pattern.length)
    (starInPattern : ∀ saved ∈ cursor.star, saved.1 < pattern.length)
    (enough : roundsLeft pattern name cursor ≤ rounds) :
    matchRounds pattern name rounds cursor.p cursor.n cursor.star =
      matchLoop pattern name cursor := by
  induction rounds generalizing cursor with
  | zero =>
    unfold roundsLeft at enough
    omega
  | succ rounds ih =>
    rw [matchRounds.eq_def, matchLoop]
    dsimp only
    by_cases inName : cursor.n < name.length
    · rw [if_pos inName, dif_pos inName]
      by_cases isMatch : charsMatch pattern name cursor.p cursor.n = true
      · have short : cursor.p < pattern.length := by
          rcases charsMatch_iff.mp isMatch with isAny | ⟨short, -⟩
          · exact (List.getElem?_eq_some_iff.mp isAny).1
          · exact short
        rw [if_pos (charsMatch_iff.mp isMatch), if_pos isMatch]
        apply @ih cursor.advance short starInPattern
        simp only [roundsLeft, GlobCursor.advance] at enough ⊢
        omega
      · rw [if_neg (mt charsMatch_iff.mpr isMatch), if_neg isMatch]
        by_cases isStar : pattern[cursor.p]? = some '*'
        · have short : cursor.p < pattern.length := (List.getElem?_eq_some_iff.mp isStar).1
          rw [if_pos isStar, dif_pos isStar]
          apply @ih cursor.enterStar short
          · simpa [GlobCursor.enterStar] using short
          · have further : (name.length - cursor.n) * (pattern.length + 1) ≤
                (name.length - (cursor.star.map Prod.snd).getD 0) * (pattern.length + 1) := by
              apply Nat.mul_le_mul_right
              rcases cursor with ⟨p, n, _ | saved, behind⟩
              · simp
              · have isBehind : saved.2 ≤ n := behind saved rfl
                simp only [Option.map_some, Option.getD_some]
                omega
            simp only [roundsLeft, GlobCursor.enterStar, Option.map_some, Option.getD_some]
              at enough ⊢
            omega
        · rw [if_neg isStar, dif_neg isStar]
          rcases cursor with ⟨p, n, _ | ⟨starP, starN⟩, behind⟩
          · rfl
          · have isBehind : starN ≤ n := behind _ rfl
            have short : starP < pattern.length := starInPattern _ rfl
            apply @ih (.retry starP starN) short
            · simpa [GlobCursor.retry] using short
            · have fewer : (name.length - starN) * (pattern.length + 1) =
                  (name.length - (starN + 1)) * (pattern.length + 1) + (pattern.length + 1) := by
                obtain ⟨rest, isRest⟩ : ∃ rest, name.length - starN = rest + 1 :=
                  ⟨name.length - starN - 1, by dsimp only at inName; omega⟩
                rw [isRest, Nat.succ_mul, show name.length - (starN + 1) = rest by omega]
              simp only [roundsLeft, GlobCursor.retry, Option.map_some, Option.getD_some]
                at enough ⊢
              omega
    · rw [if_neg inName, dif_neg inName, onlyStars_eq inPattern]

theorem matchFrom_eq_matchLoop (pattern name : List Char) :
    matchFrom pattern name = matchLoop pattern name .start := by
  apply @matchRounds_eq pattern name .start _ (Nat.zero_le _) nofun
  simp only [roundsLeft, GlobCursor.start, Option.map_none, Option.getD_none, Nat.sub_zero]
  have larger : name.length * (pattern.length + 1) ≤
      name.length * (name.length + pattern.length + 1) := Nat.mul_le_mul_left _ (by omega)
  have isTotal : (name.length + 1) * (name.length + pattern.length + 1) =
      name.length * (name.length + pattern.length + 1) + (name.length + pattern.length + 1) :=
    Nat.succ_mul ..
  omega

theorem exists_of_charsMatch {p n : Nat} (inName : n < name.length)
    (isMatch : charsMatch pattern name p n = true) :
    ∃ char first, pattern.drop p = char :: pattern.drop (p + 1) ∧
      name.drop n = first :: name.drop (n + 1) ∧ (char = '?' ∨ char = first) := by
  unfold charsMatch at isMatch
  cases isChar : pattern[p]? with
  | none => simp [isChar] at isMatch
  | some char =>
    obtain ⟨short, rfl⟩ := List.getElem?_eq_some_iff.mp isChar
    refine ⟨_, _, List.drop_eq_getElem_cons short, List.drop_eq_getElem_cons inName, ?_⟩
    simpa [isChar, List.getElem?_eq_getElem inName] using isMatch

theorem here_of_charsMatch {p n : Nat} (inName : n < name.length)
    (isMatch : charsMatch pattern name p n = true) (here : Here pattern name (p + 1) (n + 1)) :
    Here pattern name p n := by
  obtain ⟨char, first, isPattern, isName, same⟩ := exists_of_charsMatch inName isMatch
  unfold Here at here ⊢
  rw [isPattern, isName]
  by_cases isStar : char = '*'
  · subst isStar
    exact matches_star.mpr ⟨1, here⟩
  · exact (matches_of_ne isStar).mpr ⟨first, _, rfl, same, here⟩

theorem here_star {p n : Nat} (isStar : pattern[p]? = some '*') :
    Here pattern name p n ↔ ∃ further, n ≤ further ∧ Here pattern name (p + 1) further := by
  obtain ⟨short, isChar⟩ := List.getElem?_eq_some_iff.mp isStar
  unfold Here
  rw [List.drop_eq_getElem_cons short, isChar, matches_star]
  constructor
  · rintro ⟨count, isMatch⟩
    exact ⟨n + count, by omega, by simpa [List.drop_drop] using isMatch⟩
  · rintro ⟨further, isFurther, isMatch⟩
    refine ⟨further - n, ?_⟩
    rwa [List.drop_drop, Nat.add_sub_cancel' isFurther]

/-- Whatever the loop finds is a match, since a star may also stand for a star. -/
theorem sound_matchLoop (isTrue : matchLoop pattern name cursor = true) :
    Here pattern name cursor.p cursor.n ∨ Later pattern name cursor := by
  fun_induction matchLoop pattern name cursor with
  | case1 cursor inName isMatch ih => exact (ih isTrue).imp (here_of_charsMatch inName isMatch) id
  | case2 cursor inName noMatch isStar ih =>
    apply Or.inl
    rw [here_star isStar]
    rcases ih isTrue with here | ⟨saved, isSaved, further, isFurther, here⟩
    · exact ⟨cursor.n, le_rfl, here⟩
    · obtain rfl : (cursor.p, cursor.n) = saved := Option.some.inj isSaved
      exact ⟨further, Nat.le_of_lt isFurther, here⟩
  | case3 cursor inName noMatch noStar starP starN saved ih =>
    apply Or.inr
    refine ⟨(starP, starN), saved, ?_⟩
    rcases ih isTrue with here | ⟨last, isLast, further, isFurther, here⟩
    · exact ⟨starN + 1, Nat.lt_succ_self _, here⟩
    · obtain rfl : (starP, starN + 1) = last := Option.some.inj isLast
      exact ⟨further, by omega, here⟩
  | case4 cursor inName noMatch noStar saved => cases isTrue
  | case5 cursor inName =>
    apply Or.inl
    unfold Here
    rw [List.drop_eq_nil_of_le (not_lt.mp inName)]
    exact (onlyStars_iff.mp isTrue).2

/-- Since the last star the pattern has no other, and it has moved on with the name. -/
structure Aligned (pattern name : List Char) (cursor : GlobCursor) : Prop where
  inPattern : cursor.p ≤ pattern.length
  inName : cursor.n ≤ name.length
  moved : ∀ saved, cursor.star = some saved →
    cursor.p = saved.1 + 1 + (cursor.n - saved.2) ∧
      '*' ∉ (pattern.drop (saved.1 + 1)).take (cursor.n - saved.2)

theorem Aligned.exists_here (aligned : Aligned pattern name cursor)
    (later : Later pattern name cursor) :
    ∃ further, cursor.n < further ∧ Here pattern name cursor.p further := by
  obtain ⟨saved, isSaved, further, isFurther, here⟩ := later
  obtain ⟨moved, noStar⟩ := aligned.moved saved isSaved
  have behind := cursor.behind saved isSaved
  unfold Here at here ⊢
  rw [← List.take_append_drop (cursor.n - saved.2) (pattern.drop (saved.1 + 1))] at here
  have length : ((pattern.drop (saved.1 + 1)).take (cursor.n - saved.2)).length =
      cursor.n - saved.2 := by
    have := aligned.inPattern
    simp only [List.length_take, List.length_drop]
    omega
  obtain ⟨-, rest⟩ := drop_of_matches noStar here
  rw [length, List.drop_drop, List.drop_drop, ← moved] at rest
  exact ⟨further + (cursor.n - saved.2), by omega, rest⟩

theorem Aligned.advance (aligned : Aligned pattern name cursor) (inName : cursor.n < name.length)
    {char : Char} (isPattern : pattern.drop cursor.p = char :: pattern.drop (cursor.p + 1))
    (notStar : char ≠ '*') : Aligned pattern name cursor.advance where
  inPattern := by
    by_contra long
    have long : pattern.length ≤ cursor.p := by
      simp only [GlobCursor.advance] at long
      omega
    simp [List.drop_eq_nil_of_le long] at isPattern
  inName := inName
  moved := by
    intro saved isSaved
    obtain ⟨moved, noStar⟩ := aligned.moved saved isSaved
    have behind := cursor.behind saved isSaved
    have more : cursor.n + 1 - saved.2 = (cursor.n - saved.2) + 1 := by omega
    simp only [GlobCursor.advance, more]
    refine ⟨by omega, ?_⟩
    have next : (pattern.drop (saved.1 + 1))[cursor.n - saved.2]? = some char := by
      rw [List.getElem?_drop, ← moved, ← List.head?_drop, isPattern, List.head?_cons]
    rw [List.take_add_one, next]
    simpa [notStar.symm] using noStar

theorem Aligned.enterStar (aligned : Aligned pattern name cursor)
    (isStar : pattern[cursor.p]? = some '*') : Aligned pattern name cursor.enterStar where
  inPattern := (List.getElem?_eq_some_iff.mp isStar).1
  inName := aligned.inName
  moved := by
    intro saved isSaved
    obtain rfl : (cursor.p, cursor.n) = saved := Option.some.inj isSaved
    simp [GlobCursor.enterStar]

theorem Aligned.retry (aligned : Aligned pattern name cursor) (inName : cursor.n < name.length)
    {starP starN : Nat} (saved : cursor.star = some (starP, starN)) :
    Aligned pattern name (.retry starP starN) where
  inPattern := by
    have moved := (aligned.moved _ saved).1
    have inPattern := aligned.inPattern
    simp only [GlobCursor.retry] at moved ⊢
    omega
  inName := by
    have behind := cursor.behind _ saved
    simp only [GlobCursor.retry] at behind ⊢
    omega
  moved := by
    intro last isLast
    obtain rfl : (starP, starN + 1) = last := Option.some.inj isLast
    simp [GlobCursor.retry]

theorem not_here {p n : Nat} (inName : n < name.length)
    (noMatch : ¬charsMatch pattern name p n = true) (noStar : pattern[p]? ≠ some '*') :
    ¬Here pattern name p n := by
  unfold Here
  rw [List.drop_eq_getElem_cons inName]
  intro isMatch
  cases isChar : pattern[p]? with
  | none =>
    rw [List.drop_eq_nil_of_le (List.getElem?_eq_none_iff.mp isChar), matches_nil] at isMatch
    cases isMatch
  | some char =>
    obtain ⟨short, rfl⟩ := List.getElem?_eq_some_iff.mp isChar
    rw [List.drop_eq_getElem_cons short] at isMatch
    have notStar : pattern[p] ≠ '*' := fun isStar => noStar (by rw [isChar, isStar])
    obtain ⟨_, _, ⟨⟩, same, -⟩ := (matches_of_ne notStar).mp isMatch
    apply noMatch
    simpa [charsMatch, isChar, List.getElem?_eq_getElem inName] using same

/-- The loop finds every match where no star of the pattern meets a star of the name. -/
theorem matchLoop_iff (starless : '*' ∉ pattern ∨ '*' ∉ name)
    (aligned : Aligned pattern name cursor) : matchLoop pattern name cursor = true ↔
      Here pattern name cursor.p cursor.n ∨ Later pattern name cursor := by
  refine ⟨sound_matchLoop, fun found => ?_⟩
  fun_induction matchLoop pattern name cursor with
  | case1 cursor inName isMatch ih =>
    obtain ⟨char, first, isPattern, isName, same⟩ := exists_of_charsMatch inName isMatch
    have notStar : char ≠ '*' := by
      rintro rfl
      rcases starless with noStar | noStar
      · exact noStar (List.mem_of_mem_drop (isPattern ▸ List.mem_cons_self))
      · obtain rfl : '*' = first := same.resolve_left (by decide)
        exact noStar (List.mem_of_mem_drop (isName ▸ List.mem_cons_self))
    apply ih (aligned.advance inName isPattern notStar)
    refine found.imp (fun here => ?_) id
    unfold Here at here ⊢
    rw [isPattern, isName, matches_of_ne notStar] at here
    obtain ⟨_, _, ⟨⟩, _, further⟩ := here
    exact further
  | case2 cursor inName noMatch isStar ih =>
    apply ih (aligned.enterStar isStar)
    have exists_further : ∃ further, cursor.n ≤ further ∧
        Here pattern name (cursor.p + 1) further := by
      rcases found with here | later
      · exact (here_star isStar).mp here
      · obtain ⟨further, isFurther, here⟩ := aligned.exists_here later
        obtain ⟨last, isLast, rest⟩ := (here_star isStar).mp here
        exact ⟨last, by omega, rest⟩
    obtain ⟨further, isFurther, here⟩ := exists_further
    rcases Nat.eq_or_lt_of_le isFurther with rfl | more
    · exact .inl here
    · exact .inr ⟨_, rfl, further, more, here⟩
  | case3 cursor inName noMatch noStar starP starN saved ih =>
    apply ih (aligned.retry inName saved)
    obtain ⟨last, isLast, further, isFurther, here⟩ :=
      found.resolve_left (not_here inName noMatch noStar)
    obtain rfl : (starP, starN) = last := Option.some.inj (saved.symm.trans isLast)
    rcases Nat.eq_or_lt_of_le (Nat.succ_le_of_lt isFurther) with rfl | more
    · exact .inl here
    · exact .inr ⟨_, rfl, further, more, here⟩
  | case4 cursor inName noMatch noStar saved =>
    obtain ⟨last, isLast, -⟩ := found.resolve_left (not_here inName noMatch noStar)
    rw [saved] at isLast
    cases isLast
  | case5 cursor inName =>
    have ended : name.drop cursor.n = [] := List.drop_eq_nil_of_le (not_lt.mp inName)
    have here : Here pattern name cursor.p cursor.n := by
      rcases found with here | later
      · exact here
      · obtain ⟨further, isFurther, here⟩ := aligned.exists_here later
        have beyond : name.drop further = [] := List.drop_eq_nil_of_le (by omega)
        unfold Here at here ⊢
        rwa [beyond, ← ended] at here
    unfold Here at here
    rw [ended] at here
    exact onlyStars_iff.mpr ⟨aligned.inPattern, here⟩

theorem aligned_start (pattern name : List Char) : Aligned pattern name .start where
  inPattern := Nat.zero_le _
  inName := Nat.zero_le _
  moved := by simp [GlobCursor.start]

theorem matchFrom_iff (starless : '*' ∉ pattern ∨ '*' ∉ name) :
    matchFrom pattern name = true ↔ Matches pattern name := by
  have found := matchLoop_iff starless (aligned_start pattern name)
  simpa [matchFrom_eq_matchLoop, Here, Later, GlobCursor.start] using found

/-! ### Stars in both -/

theorem matchFrom_eq {count : Nat} (short : count ≤ name.length)
    (together : ∀ index < count, charsMatch pattern name index index = true) :
    matchFrom pattern name = matchLoop pattern name ⟨count, count, none, by simp⟩ := by
  induction count with
  | zero => exact matchFrom_eq_matchLoop pattern name
  | succ count ih =>
    rw [ih (by omega) fun index isBefore => together index (by omega)]
    have inName : count < name.length := short
    rw [matchLoop, dif_pos inName, if_pos (together count (Nat.lt_succ_self count))]
    rfl

theorem matches_rests {before after first last : List Char} (same : before.length = first.length)
    (together : ∀ index < before.length,
      charsMatch (before ++ after) (first ++ last) index index = true)
    (isTrue : matchFrom (before ++ after) (first ++ last) = true) : Matches after last := by
  rw [matchFrom_eq (by simp [same]) together] at isTrue
  rcases sound_matchLoop isTrue with here | ⟨_, none, _⟩
  · unfold Here at here
    rwa [List.drop_left, same, List.drop_left] at here
  · cases none

theorem Matches.append {first second left right : List Char} (matchesFirst : Matches first left)
    (matchesSecond : Matches second right) : Matches (first ++ second) (left ++ right) := by
  obtain ⟨pieces, rfl, stand⟩ := matchesFirst
  obtain ⟨others, rfl, stands⟩ := matchesSecond
  exact ⟨pieces ++ others, by simp, List.rel_append stand stands⟩

theorem matches_any (name : List Char) : Matches (List.replicate name.length '?') name := by
  induction name with
  | nil => exact matches_nil.mpr rfl
  | cons char name ih => exact (matches_of_ne (by decide)).mpr ⟨char, name, rfl, .inl rfl, ih⟩

theorem matches_self (text : List Char) : Matches text text := by
  induction text with
  | nil => exact matches_nil.mpr rfl
  | cons char text ih =>
    refine matches_cons.mpr ⟨[char], text, rfl, ?_, ih⟩
    unfold Stands
    split_ifs <;> trivial

/-- A name with a star is not found by a pattern in which a star is to stand for nothing there. -/
theorem exists_pattern (isStar : '*' ∈ name) :
    ∃ pattern, (∀ char ∈ pattern, char = '*' ∨ char = '?') ∧ Matches pattern name ∧
      matchFrom pattern name = false := by
  obtain ⟨before, after, rfl⟩ := List.append_of_mem isStar
  let any := List.replicate before.length '?'
  let rest := List.replicate (after.length + 1) '?'
  refine ⟨any ++ '*' :: rest, ?_, ?_, ?_⟩
  · intro char member
    simp only [any, rest, List.mem_append, List.mem_cons, List.mem_replicate] at member
    tauto
  · exact (matches_any before).append (matches_star.mpr ⟨0, matches_any ('*' :: after)⟩)
  · apply Bool.eq_false_iff.mpr
    rw [List.append_cons any, List.append_cons before]
    intro isTrue
    have found := matches_rests (by simp [any]) ?_ isTrue
    · have length := length_of_matches (by simp [rest]) found
      simp [rest] at length
    · intro index isBefore
      simp only [any, List.length_append, List.length_replicate, List.length_singleton] at isBefore
      rcases Nat.lt_or_eq_of_le (Nat.le_of_lt_succ isBefore) with inBefore | rfl
      · have isAny : (any ++ ['*'] ++ rest)[index]? = some '?' := by
          rw [List.append_assoc, List.getElem?_append_left (by simpa [any] using inBefore)]
          simp [any, inBefore]
        rw [charsMatch, isAny]
        simp
      · simp [charsMatch, any]

/-- A pattern with a star does not find the name in which its last star is doubled. -/
theorem exists_name (isStar : '*' ∈ pattern) :
    ∃ name, (∀ char ∈ name, char ∈ pattern) ∧ Matches pattern name ∧
      matchFrom pattern name = false := by
  obtain ⟨after, before, isReverse, noStar⟩ :=
    List.eq_append_cons_of_mem (List.mem_reverse.mpr isStar)
  obtain ⟨first, last, rfl, noStar⟩ : ∃ first last, pattern = first ++ ['*'] ++ last ∧
      '*' ∉ last := by
    refine ⟨before.reverse, after.reverse, ?_, by simpa using noStar⟩
    rw [← List.reverse_reverse pattern, isReverse]
    simp
  refine ⟨first ++ ['*'] ++ '*' :: last, ?_, ?_, ?_⟩
  · intro char member
    simp only [List.mem_append, List.mem_cons] at member ⊢
    tauto
  · rw [← List.append_cons first, List.append_assoc]
    exact (matches_self first).append (matches_star.mpr ⟨2, matches_self last⟩)
  · apply Bool.eq_false_iff.mpr
    intro isTrue
    have found := matches_rests rfl ?_ isTrue
    · have length := length_of_matches noStar found
      simp at length
    · intro index isBefore
      rw [charsMatch, List.getElem?_append_left isBefore, List.getElem?_append_left isBefore,
        List.getElem?_eq_getElem isBefore]
      simp

end Glob

/-- What lower-casing is known to do: characters that it produces, and wildcards, stay. -/
structure LowerCases (lowercase : String → String) : Prop where
  keeps : ∀ text : String, (∀ char ∈ text.toList, char = '*' ∨ char = '?' ∨
    ∃ other, char ∈ (lowercase other).toList) → lowercase text = text

/-- `glob_match` is glob matching of the lower-cased texts. -/
def GlobMatching (lowercase : String → String) (pattern name : String) : Prop :=
  globMatch lowercase pattern name = true ↔
    Glob.Matches (lowercase pattern).toList (lowercase name).toList

section Matching

variable {lowercase : String → String} {pattern name : String}

theorem globMatching_of_starless
    (starless : '*' ∉ (lowercase pattern).toList ∨ '*' ∉ (lowercase name).toList) :
    GlobMatching lowercase pattern name := Glob.matchFrom_iff starless

theorem not_globMatching {first second : List Char} (isPattern : (lowercase pattern).toList = first)
    (isName : (lowercase name).toList = second) (isMatch : Glob.Matches first second)
    (fails : matchFrom first second = false) : ¬GlobMatching lowercase pattern name := by
  intro matching
  rw [GlobMatching, globMatch, isPattern, isName, fails] at matching
  exact absurd (matching.mpr isMatch) (by decide)

end Matching

end Porthmos
