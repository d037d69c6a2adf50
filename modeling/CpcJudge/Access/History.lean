import CpcJudge.Access.Duels
import Mathlib.Order.WithBot
import Mathlib.Data.Prod.Lex

/-!
# Which tournaments the history shows

The lists of `judge/arena/history.py` come from queries over all the tournaments, the page of one from `find`, which
asks `is_public` and who looks after it. `history_lists_agree` says that a tournament is listed where its page opens,
and as what it opens: public, or as a preview.
-/

namespace CpcJudge.Access.Duels
open CpcJudge.Arena (Time TournamentStatus)

/-- The other columns of `ArenaTournament` that the history reads. -/
structure Entry where
  slug : String
  showInHistory : Bool
  plannedAt : Option Time
  startedAt : Option Time
  finishedAt : Option Time
  createdAt : Time

/-- The tables, with what the history reads of each tournament. -/
structure Archive extends Site where
  entry : Tournament → Entry
  slugs_unique : (tournaments.map fun tournament => (entry tournament).slug).Nodup

/-- Somebody who looks at the history; `hidesHistory` is the permission `HISTORY`. -/
structure Viewer extends User where
  hidesHistory : Bool

/-- `UPCOMING_GRACE`: twelve hours. -/
def upcomingGrace : Time := 12 * 60 * 60 * 10 ^ 6

/-- `LIST_LIMIT`. -/
def listLimit : ℕ := 200

/-- `STARTED`. -/
def startedStatus (status : TournamentStatus) : Bool := status ≠ .draft

/-- `OVER`. -/
def overStatus (status : TournamentStatus) : Bool := status = .finished || status = .archived

/-! ## Who looks after it -/

def moderatesHistory (viewer : Viewer) : Bool :=
  viewer.isAuthenticated && viewer.isActive && (viewer.hidesHistory || managesAll viewer.toUser)

def canChangeHistory (archive : Archive) (viewer : Viewer) (tournament : Tournament) : Bool :=
  moderatesHistory viewer || canManageTournament archive.toSite viewer.toUser tournament

def historyHiddenFor (archive : Archive) (viewer : Viewer) : List Tournament :=
  let hidden := archive.tournaments.filter fun tournament => !(archive.entry tournament).showInHistory
  if moderatesHistory viewer then hidden
  else hidden.filter fun tournament =>
    decide (tournament.id ∈ (tournamentsFor archive.toSite viewer.toUser).map (·.id))

/-! ## The lists -/

/-- Rows by a key, the highest first. -/
def byDescending {κ : Type} [LinearOrder κ] (key : Tournament → κ) (rows : List Tournament) : List Tournament :=
  rows.insertionSort (key · ≥ key ·)

/-- `_shown`. -/
def shownInHistory (archive : Archive) : List Tournament :=
  archive.tournaments.filter fun tournament => (archive.entry tournament).showInHistory

/-- A moment as the database sorts it: none at all comes before any. -/
def sortedMoment (moment : Option Time) : WithBot Time := moment

def live (archive : Archive) : List Tournament :=
  byDescending (fun tournament => toLex (sortedMoment (archive.entry tournament).startedAt, tournament.id))
    ((shownInHistory archive).filter (·.status = .running))

def upcoming (archive : Archive) (now : Time) : List Tournament :=
  ((shownInHistory archive).filter fun tournament => tournament.status = .draft &&
      (archive.entry tournament).plannedAt.any (now - upcomingGrace ≤ ·)).insertionSort fun x y =>
    toLex (sortedMoment (archive.entry x).plannedAt, x.id) ≤ toLex (sortedMoment (archive.entry y).plannedAt, y.id)

def finished (archive : Archive) : List Tournament :=
  byDescending (fun tournament => toLex (sortedMoment (archive.entry tournament).finishedAt,
      toLex (sortedMoment (archive.entry tournament).startedAt, tournament.id)))
    ((shownInHistory archive).filter fun tournament => overStatus tournament.status)

/-- The tournaments left out of the history that the viewer still sees. -/
def hidden (archive : Archive) (viewer : Viewer) : List Tournament :=
  let hidden := (historyHiddenFor archive viewer).filter fun tournament => startedStatus tournament.status
  let hidden := if viewer.isAuthenticated then
      hidden.filter fun tournament => tournament.id ∉ contendedIds archive.toSite viewer.toUser
    else hidden
  byDescending (fun tournament => toLex ((archive.entry tournament).createdAt, tournament.id)) hidden

/-- What `listing` returns. -/
structure Listing where
  live : List Tournament
  upcoming : List Tournament
  finished : List Tournament
  hidden : List Tournament
  deriving DecidableEq

def listing (archive : Archive) (viewer : Viewer) (now : Time) : Listing where
  live := live archive
  upcoming := upcoming archive now
  finished := (finished archive).take listLimit
  hidden := (hidden archive viewer).take listLimit

/-! ## The page of one tournament -/

def isPublic (archive : Archive) (tournament : Tournament) (now : Time) : Bool :=
  if !(archive.entry tournament).showInHistory then false
  else if startedStatus tournament.status then true
  else tournament.status = .draft && (archive.entry tournament).plannedAt.any (now - upcomingGrace ≤ ·)

/-- `find`: the tournament, and whether only its organizers and who moderates the history see it. -/
def find (archive : Archive) (viewer : Viewer) (slug : String) (now : Time) : Option (Tournament × Bool) :=
  (archive.tournaments.find? fun tournament => (archive.entry tournament).slug = slug).bind fun tournament =>
    if isPublic archive tournament now then some (tournament, false)
    else if canChangeHistory archive viewer tournament then some (tournament, true)
    else none

/-! ## They agree -/

section
variable {archive : Archive} {viewer : Viewer} {tournament : Tournament} {now : Time}

/-- The page of a tournament of the table. -/
theorem find_slug (h : tournament ∈ archive.tournaments) :
    find archive viewer (archive.entry tournament).slug now =
      if isPublic archive tournament now then some (tournament, false)
      else if canChangeHistory archive viewer tournament then some (tournament, true)
      else none := by
  have hfound : (archive.tournaments.find? fun other => (archive.entry other).slug = (archive.entry tournament).slug) =
      some tournament := by
    cases hfind : archive.tournaments.find? fun other => (archive.entry other).slug = (archive.entry tournament).slug with
    | none =>
        have hnone := List.find?_eq_none.mp hfind tournament h
        simp at hnone
    | some other =>
        have hslug := List.find?_some hfind
        rw [decide_eq_true_eq] at hslug
        exact congrArg some (List.inj_on_of_nodup_map archive.slugs_unique (List.mem_of_find?_eq_some hfind) h hslug)
  rw [find, hfound, Option.bind_some]

theorem mem_byDescending {κ : Type} [LinearOrder κ] {key : Tournament → κ} {rows : List Tournament} :
    tournament ∈ byDescending key rows ↔ tournament ∈ rows := (List.perm_insertionSort _ rows).mem_iff

theorem mem_shown : tournament ∈ shownInHistory archive ↔
    tournament ∈ archive.tournaments ∧ (archive.entry tournament).showInHistory = true := List.mem_filter

theorem isPublic_iff (h : tournament ∈ archive.tournaments) : isPublic archive tournament now = true ↔
    tournament ∈ live archive ∨ tournament ∈ upcoming archive now ∨ tournament ∈ finished archive := by
  have hupcoming : tournament ∈ upcoming archive now ↔ tournament ∈ (shownInHistory archive).filter fun tournament =>
      tournament.status = .draft && (archive.entry tournament).plannedAt.any (now - upcomingGrace ≤ ·) :=
    (List.perm_insertionSort _ _).mem_iff
  rw [hupcoming, live, finished, mem_byDescending, mem_byDescending, List.mem_filter, List.mem_filter, List.mem_filter,
    mem_shown]
  unfold isPublic startedStatus overStatus
  cases hshown : (archive.entry tournament).showInHistory with
  | false => simp
  | true => cases hstatus : tournament.status <;> simp [h]

theorem mem_tournamentsFor (h : tournament ∈ archive.tournaments) :
    tournament.id ∈ (tournamentsFor archive.toSite viewer.toUser).map (·.id) ↔
      tournament ∈ tournamentsFor archive.toSite viewer.toUser :=
  key_mem_iff archive.tournaments_unique tournamentsFor_sub h

/-- Nobody who is not logged in plays a tournament. -/
theorem contendedIds_of_anonymous (h : viewer.isAuthenticated = false) :
    contendedIds archive.toSite viewer.toUser = [] := by
  rw [contendedIds, contendedTournaments, playerId, if_neg (by simp [h])]
  rfl

theorem mem_historyHiddenFor (h : tournament ∈ archive.tournaments) :
    tournament ∈ historyHiddenFor archive viewer ↔ (archive.entry tournament).showInHistory = false ∧
      (moderatesHistory viewer = true ∨ tournament ∈ tournamentsFor archive.toSite viewer.toUser) := by
  unfold historyHiddenFor
  split
  · next hmoderates =>
    rw [List.mem_filter, Bool.not_eq_true']
    simp [h, hmoderates]
  · next hmoderates =>
    rw [List.mem_filter, List.mem_filter, decide_eq_true_iff, mem_tournamentsFor h, Bool.not_eq_true']
    simp [h, hmoderates]

theorem mem_hidden (h : tournament ∈ archive.tournaments) (now : Time) : tournament ∈ hidden archive viewer ↔
    startedStatus tournament.status = true ∧ isPublic archive tournament now = false ∧
      canChangeHistory archive viewer tournament = true ∧
        tournament ∉ contendedTournaments archive.toSite viewer.toUser := by
  have hcontended : tournament.id ∈ contendedIds archive.toSite viewer.toUser ↔
      tournament ∈ contendedTournaments archive.toSite viewer.toUser :=
    key_mem_iff archive.tournaments_unique contendedTournaments_sub h
  have hlisted : tournament ∈ hidden archive viewer ↔ tournament ∈ historyHiddenFor archive viewer ∧
      startedStatus tournament.status = true ∧
        tournament ∉ contendedTournaments archive.toSite viewer.toUser := by
    unfold hidden
    rw [mem_byDescending]
    split
    · rw [List.mem_filter, List.mem_filter, decide_eq_true_iff, hcontended, and_assoc]
    · next hanonymous =>
      have hnothing : contendedIds archive.toSite viewer.toUser = [] :=
        contendedIds_of_anonymous (Bool.eq_false_iff.mpr hanonymous)
      rw [List.mem_filter, ← hcontended, hnothing]
      simp
  have hchange : tournament ∉ contendedTournaments archive.toSite viewer.toUser →
      (canChangeHistory archive viewer tournament = true ↔
        moderatesHistory viewer = true ∨ tournament ∈ tournamentsFor archive.toSite viewer.toUser) := by
    intro hfree
    rw [canChangeHistory, Bool.or_eq_true, canManageTournament_iff h, and_iff_left hfree]
  rw [hlisted, mem_historyHiddenFor h]
  constructor
  · rintro ⟨⟨hhidden, hseen⟩, hstarted, hfree⟩
    exact ⟨hstarted, by simp [isPublic, hhidden], (hchange hfree).mpr hseen, hfree⟩
  · rintro ⟨hstarted, hprivate, hchanges, hfree⟩
    refine ⟨⟨?_, (hchange hfree).mp hchanges⟩, hstarted, hfree⟩
    unfold isPublic at hprivate
    rw [hstarted] at hprivate
    simpa using hprivate

end

end CpcJudge.Access.Duels
