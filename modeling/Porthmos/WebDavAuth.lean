import Mathlib.Data.List.Infix
import Mathlib.Order.Lattice

/-!
# The schemes a WebDAV connection signs in with

A server offers its schemes as challenges and the connection answers with the
strongest of them.  Later answers of the server may carry challenges again: a
connection without a scheme takes the strongest then, and one that uses Digest
follows a stale challenge to its new nonce.  The two choices follow different
rules, and this file compares them by the rank of the scheme in use.
-/

namespace Porthmos

namespace WebDav

inductive AlgorithmType
  | md5
  | sha2_256
  | sha2_512_256
  deriving DecidableEq, Repr

structure Algorithm where
  algo : AlgorithmType
  sess : Bool
  deriving DecidableEq, Repr

/-- What is read of a Digest challenge. -/
structure WwwAuthenticateHeader where
  realm : String
  nonce : String
  stale : Bool
  algorithm : Algorithm
  deriving DecidableEq, Repr

inductive Challenge
  | basic
  | digest (header : WwwAuthenticateHeader)
  | unsupported (name : String)
  deriving DecidableEq, Repr

inductive Scheme
  | basic
  | digest (header : WwwAuthenticateHeader)
  deriving DecidableEq, Repr

/-- The challenge a scheme answers. -/
def Scheme.challenge : Scheme → Challenge
  | .basic => .basic
  | .digest header => .digest header

def rank : Challenge → Nat
  | .digest header => if header.algorithm.algo ≠ .md5 then 3 else 2
  | .basic => 1
  | .unsupported _ => 0

/-- `Iterator::max_by_key`: the last of the elements with the greatest key. -/
def maxByKey {α : Type} (key : α → Nat) : List α → Option α
  | [] => none
  | first :: rest =>
    some (rest.foldl (fun best next => if key best ≤ key next then next else best) first)

def Challenge.unsupportedName : Challenge → Option String
  | .unsupported name => some name
  | _ => none

def strongest (challenges : List Challenge) : Except (List String) Scheme :=
  match maxByKey rank (challenges.filter fun challenge => 0 < rank challenge) with
  | some .basic => .ok .basic
  | some (.digest header) => .ok (.digest header)
  | _ => .error (challenges.filterMap Challenge.unsupportedName)

/-! ### The strongest challenge -/

section MaxByKey

variable {α : Type} (key : α → Nat)

theorem foldl_best_spec (first : α) (rest : List α) :
    let best := rest.foldl (fun best next => if key best ≤ key next then next else best) first
    best ∈ first :: rest ∧ ∀ element ∈ first :: rest, key element ≤ key best := by
  induction rest generalizing first with
  | nil => simp
  | cons next rest ih =>
    simp only [List.foldl_cons]
    split
    case isTrue isLess =>
      obtain ⟨bestMem, bestGreatest⟩ := ih next
      constructor
      · exact List.mem_cons_of_mem _ bestMem
      · intro element elementMem
        rcases List.mem_cons.mp elementMem with rfl | elementMem
        · exact isLess.trans (bestGreatest next List.mem_cons_self)
        · exact bestGreatest element elementMem
    case isFalse isGreater =>
      obtain ⟨bestMem, bestGreatest⟩ := ih first
      constructor
      · rcases List.mem_cons.mp bestMem with bestEq | bestMem
        · rw [bestEq]
          exact List.mem_cons_self
        · exact List.mem_cons_of_mem _ (List.mem_cons_of_mem _ bestMem)
      · intro element elementMem
        rcases List.mem_cons.mp elementMem with rfl | elementMem
        · exact bestGreatest element List.mem_cons_self
        · rcases List.mem_cons.mp elementMem with rfl | elementMem
          · have firstLe := bestGreatest first List.mem_cons_self
            omega
          · exact bestGreatest element (List.mem_cons_of_mem _ elementMem)

theorem maxByKey_spec {elements : List α} {best : α} (found : maxByKey key elements = some best) :
    best ∈ elements ∧ ∀ element ∈ elements, key element ≤ key best := by
  cases elements with
  | nil => simp [maxByKey] at found
  | cons first rest =>
    simp only [maxByKey, Option.some.injEq] at found
    subst found
    exact foldl_best_spec key first rest

theorem maxByKey_eq_none_iff {elements : List α} :
    maxByKey key elements = none ↔ elements = [] := by
  cases elements <;> simp [maxByKey]

end MaxByKey

theorem rank_pos_iff {challenge : Challenge} :
    0 < rank challenge ↔ ∃ scheme : Scheme, scheme.challenge = challenge := by
  cases challenge with
  | basic => simpa [rank] using ⟨Scheme.basic, rfl⟩
  | digest header =>
    constructor
    · intro _
      exact ⟨.digest header, rfl⟩
    · intro _
      simp only [rank]
      split_ifs <;> omega
  | unsupported name =>
    constructor
    · simp [rank]
    · rintro ⟨scheme, challengeEq⟩
      cases scheme <;> simp [Scheme.challenge] at challengeEq

theorem strongest_eq_ok_iff {challenges : List Challenge} {scheme : Scheme} :
    strongest challenges = .ok scheme ↔
      maxByKey rank (challenges.filter fun challenge => 0 < rank challenge) =
        some scheme.challenge := by
  unfold strongest
  cases bestEq : maxByKey rank (challenges.filter fun challenge => 0 < rank challenge) with
  | none => simp
  | some best => cases best <;> cases scheme <;> simp [Scheme.challenge]

theorem strongest_ok {challenges : List Challenge} {scheme : Scheme}
    (chosen : strongest challenges = .ok scheme) :
    scheme.challenge ∈ challenges ∧
      ∀ challenge ∈ challenges, rank challenge ≤ rank scheme.challenge := by
  obtain ⟨bestMem, bestGreatest⟩ := maxByKey_spec rank (strongest_eq_ok_iff.mp chosen)
  refine ⟨List.mem_of_mem_filter bestMem, fun challenge challengeMem => ?_⟩
  by_cases positive : 0 < rank challenge
  · exact bestGreatest challenge (by simp [challengeMem, positive])
  · omega

theorem strongest_error {challenges : List Challenge} {names : List String}
    (refused : strongest challenges = .error names) :
    ∀ challenge ∈ challenges, rank challenge = 0 := by
  intro challenge challengeMem
  by_contra isSupported
  cases bestEq : maxByKey rank (challenges.filter fun challenge => 0 < rank challenge) with
  | none =>
    have noneLeft := (maxByKey_eq_none_iff rank).mp bestEq
    rw [List.filter_eq_nil_iff] at noneLeft
    exact noneLeft challenge challengeMem (by simp; omega)
  | some best =>
    have bestMem := (maxByKey_spec rank bestEq).1
    have bestPositive : 0 < rank best := by simpa using (List.mem_filter.mp bestMem).2
    obtain ⟨scheme, schemeEq⟩ := rank_pos_iff.mp bestPositive
    have chosen : strongest challenges = .ok scheme := by rw [strongest_eq_ok_iff, bestEq, schemeEq]
    rw [chosen] at refused
    cases refused

/-! ### Authenticators -/

structure Credentials where
  username : String
  password : String
  deriving DecidableEq, Repr

structure Authenticator where
  credentials : Option Credentials := none
  scheme : Option Scheme := none
  deriving DecidableEq, Repr

/-- The header of a Digest challenge that is marked as stale. -/
def Challenge.staleHeader : Challenge → Option WwwAuthenticateHeader
  | .digest header => if header.stale then some header else none
  | _ => none

namespace Authenticator

def useScheme (auth : Authenticator) (scheme : Scheme) : Authenticator :=
  { auth with scheme := some scheme }

def useCredentials (auth : Authenticator) (username password : String) : Authenticator :=
  { auth with credentials := some ⟨username, password⟩ }

/-- Take up the challenges of an answer; the flag tells whether the request is
worth another try. -/
def refresh (auth : Authenticator) (challenges : List Challenge) : Authenticator × Bool :=
  match auth.scheme with
  | none =>
    if auth.credentials.isNone then (auth, false)
    else
      match strongest challenges with
      | .ok scheme => (auth.useScheme scheme, true)
      | .error _ => (auth, false)
  | some .basic => (auth, false)
  | some (.digest current) =>
    match challenges.findSome? Challenge.staleHeader with
    | none => (auth, false)
    | some header =>
      if current.nonce = header.nonce then (auth, true)
      else (auth.useScheme (.digest header), true)

/-- The authenticator after a session's answers, in order. -/
def afterAnswers (auth : Authenticator) (answers : List (List Challenge)) : Authenticator :=
  answers.foldl (fun auth challenges => (auth.refresh challenges).1) auth

/-- The rank of the scheme in use. -/
def schemeRank (auth : Authenticator) : Nat :=
  match auth.scheme with
  | none => 0
  | some scheme => rank scheme.challenge

/-- The first stale Digest challenge, where it comes with another nonce, is no
weaker than the Digest scheme in use. -/
def StaleKeepsRank (auth : Authenticator) (challenges : List Challenge) : Prop :=
  ∀ current header, auth.scheme = some (.digest current) →
    challenges.findSome? Challenge.staleHeader = some header →
    current.nonce ≠ header.nonce →
    current.algorithm.algo ≠ .md5 → header.algorithm.algo ≠ .md5

/-- At no two times of a session is the later scheme the weaker one. -/
def NeverDowngraded (auth : Authenticator) (answers : List (List Challenge)) : Prop :=
  ∀ earlier between later, answers = earlier ++ between ++ later →
    (auth.afterAnswers earlier).schemeRank ≤ (auth.afterAnswers (earlier ++ between)).schemeRank

/-! ### One answer -/

/-- What one answer of the server can do to the scheme. -/
theorem refresh_cases (auth : Authenticator) (challenges : List Challenge) :
    (auth.refresh challenges).1 = auth ∨
    (∃ scheme, auth.scheme = none ∧ strongest challenges = .ok scheme ∧
      (auth.refresh challenges).1 = auth.useScheme scheme) ∨
    (∃ current header, auth.scheme = some (.digest current) ∧
      challenges.findSome? Challenge.staleHeader = some header ∧
      current.nonce ≠ header.nonce ∧
      (auth.refresh challenges).1 = auth.useScheme (.digest header)) := by
  unfold refresh
  cases schemeEq : auth.scheme with
  | none =>
    dsimp only
    split_ifs
    · simp
    · cases chosen : strongest challenges with
      | ok scheme => exact .inr (.inl ⟨scheme, rfl, rfl, rfl⟩)
      | error names => simp
  | some scheme =>
    cases scheme with
    | basic => simp
    | digest current =>
      cases staleEq : challenges.findSome? Challenge.staleHeader with
      | none => simp
      | some header =>
        dsimp only
        split_ifs with sameNonce
        · simp
        · exact .inr (.inr ⟨current, header, rfl, rfl, sameNonce, rfl⟩)

@[simp]
theorem schemeRank_useScheme (auth : Authenticator) (scheme : Scheme) :
    (auth.useScheme scheme).schemeRank = rank scheme.challenge :=
  rfl

theorem schemeRank_of_scheme {auth : Authenticator} {scheme : Scheme}
    (schemeEq : auth.scheme = some scheme) : auth.schemeRank = rank scheme.challenge := by
  simp [schemeRank, schemeEq]

/-- One answer keeps the rank exactly when its first stale challenge does. -/
theorem schemeRank_le_refresh_iff (auth : Authenticator) (challenges : List Challenge) :
    auth.schemeRank ≤ (auth.refresh challenges).1.schemeRank ↔ auth.StaleKeepsRank challenges := by
  rcases refresh_cases auth challenges with unchanged |
    ⟨scheme, schemeNone, -, chosen⟩ | ⟨current, header, schemeEq, staleEq, otherNonce, taken⟩
  · rw [unchanged]
    refine iff_of_true le_rfl ?_
    intro current header schemeEq staleEq otherNonce
    simp [refresh, schemeEq, staleEq, otherNonce] at unchanged
    have sameHeader : header = current := by
      have schemeSame := congrArg Authenticator.scheme unchanged
      simpa [useScheme, schemeEq] using schemeSame
    exact absurd (congrArg WwwAuthenticateHeader.nonce sameHeader.symm) otherNonce
  · refine iff_of_true ?_ ?_
    · simp [schemeRank, schemeNone]
    · intro current header schemeEq
      rw [schemeNone] at schemeEq
      cases schemeEq
  · rw [taken, schemeRank_useScheme, schemeRank_of_scheme schemeEq]
    simp only [Scheme.challenge, rank]
    constructor
    · intro rankLe current' header' schemeEq' staleEq' _ strong
      have sameCurrent : current' = current := by
        rw [schemeEq] at schemeEq'
        cases schemeEq'
        exact rfl
      have sameHeader : header' = header := by
        rw [staleEq] at staleEq'
        cases staleEq'
        exact rfl
      subst sameCurrent sameHeader
      intro isMd5
      simp [strong, isMd5] at rankLe
    · intro keeps
      have strongKept := keeps current header schemeEq staleEq otherNonce
      by_cases strong : current.algorithm.algo = .md5
      · simp only [strong, ne_eq, not_true_eq_false, if_false]
        split_ifs <;> omega
      · simp only [strong, strongKept strong, ne_eq, not_false_eq_true, if_true, le_refl]

theorem two_le_schemeRank_refresh {auth : Authenticator} (isDigest : 2 ≤ auth.schemeRank)
    (challenges : List Challenge) : 2 ≤ (auth.refresh challenges).1.schemeRank := by
  rcases refresh_cases auth challenges with unchanged |
    ⟨scheme, schemeNone, -, -⟩ | ⟨current, header, -, -, -, taken⟩
  · rwa [unchanged]
  · simp [schemeRank, schemeNone] at isDigest
  · rw [taken, schemeRank_useScheme]
    simp only [Scheme.challenge, rank]
    split_ifs <;> omega

/-! ### A session -/

theorem afterAnswers_append (auth : Authenticator) (first second : List (List Challenge)) :
    auth.afterAnswers (first ++ second) = (auth.afterAnswers first).afterAnswers second := by
  simp [afterAnswers]

theorem afterAnswers_singleton (auth : Authenticator) (challenges : List Challenge) :
    auth.afterAnswers [challenges] = (auth.refresh challenges).1 :=
  rfl

theorem two_le_schemeRank_afterAnswers {auth : Authenticator} (isDigest : 2 ≤ auth.schemeRank)
    (answers : List (List Challenge)) : 2 ≤ (auth.afterAnswers answers).schemeRank := by
  induction answers generalizing auth with
  | nil => exact isDigest
  | cons challenges answers ih => exact ih (two_le_schemeRank_refresh isDigest challenges)

theorem schemeRank_le_afterAnswers {auth : Authenticator} {answers : List (List Challenge)}
    (keeps : ∀ before challenges after, answers = before ++ challenges :: after →
      (auth.afterAnswers before).StaleKeepsRank challenges) :
    auth.schemeRank ≤ (auth.afterAnswers answers).schemeRank := by
  induction answers generalizing auth with
  | nil => exact le_rfl
  | cons challenges answers ih =>
    have firstKept : auth.schemeRank ≤ (auth.refresh challenges).1.schemeRank :=
      (schemeRank_le_refresh_iff auth challenges).mpr (keeps [] challenges answers rfl)
    have restKept : (auth.refresh challenges).1.schemeRank ≤
        ((auth.refresh challenges).1.afterAnswers answers).schemeRank :=
      ih fun before next after answersEq =>
        keeps (challenges :: before) next after (by rw [answersEq, List.cons_append])
    exact firstKept.trans restKept

/-- A whole session never weakens the scheme exactly when none of its answers
does. -/
theorem neverDowngraded_iff (auth : Authenticator) (answers : List (List Challenge)) :
    auth.NeverDowngraded answers ↔
      ∀ before challenges after, answers = before ++ challenges :: after →
        (auth.afterAnswers before).StaleKeepsRank challenges := by
  constructor
  · intro never before challenges after answersEq
    rw [← schemeRank_le_refresh_iff]
    have kept := never before [challenges] after (by simp [answersEq])
    rwa [afterAnswers_append, afterAnswers_singleton] at kept
  · intro keeps earlier between later answersEq
    rw [afterAnswers_append]
    refine schemeRank_le_afterAnswers fun before challenges after betweenEq => ?_
    rw [← afterAnswers_append]
    exact keeps (earlier ++ before) challenges (after ++ later) (by simp [answersEq, betweenEq])

/-- The first choice takes a challenge of the greatest rank.  A session keeps
the rank of its scheme exactly when the first stale Digest challenge of no
answer is of a weaker algorithm, and it never goes from Digest to Basic. -/
theorem session_keeps_rank_iff (offered : List Challenge) (auth : Authenticator)
    (answers : List (List Challenge)) :
    (∀ scheme, strongest offered = .ok scheme →
      scheme.challenge ∈ offered ∧
        ∀ challenge ∈ offered, rank challenge ≤ rank scheme.challenge) ∧
    (∀ names, strongest offered = .error names → ∀ challenge ∈ offered, rank challenge = 0) ∧
    (auth.NeverDowngraded answers ↔
      ∀ before challenges after, answers = before ++ challenges :: after →
        (auth.afterAnswers before).StaleKeepsRank challenges) ∧
    (2 ≤ auth.schemeRank → 2 ≤ (auth.afterAnswers answers).schemeRank) := by
  refine ⟨?_, ?_, ?_, ?_⟩
  · intro scheme chosen
    exact strongest_ok chosen
  · intro names refused
    exact strongest_error refused
  · exact neverDowngraded_iff auth answers
  · intro isDigest
    exact two_le_schemeRank_afterAnswers isDigest answers

/-- A Digest challenge for the realm of a share. -/
def shareHeader (nonce : String) (stale : Bool) (algo : AlgorithmType) : WwwAuthenticateHeader :=
  { realm := "share", nonce, stale, algorithm := ⟨algo, false⟩ }

/-- A server that offers SHA-256 and MD5 and lists MD5 first when the nonce has
expired. -/
theorem stale_md5_replaces_sha256 :
    strongest [.digest (shareHeader "n1" false .md5), .digest (shareHeader "n1" false .sha2_256)] =
      .ok (.digest (shareHeader "n1" false .sha2_256)) ∧
    ¬ (((Authenticator.mk none none).useCredentials "u" "p").useScheme
        (.digest (shareHeader "n1" false .sha2_256))).NeverDowngraded
      [[.digest (shareHeader "n2" true .md5), .digest (shareHeader "n2" true .sha2_256)]] := by
  constructor
  · decide
  · intro never
    have kept := never [] [[.digest (shareHeader "n2" true .md5),
      .digest (shareHeader "n2" true .sha2_256)]] [] rfl
    revert kept
    decide

end Authenticator

end WebDav

end Porthmos
