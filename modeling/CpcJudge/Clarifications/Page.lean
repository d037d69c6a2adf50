import CpcJudge.Clarifications.Basic

/-!
# What a contestant is shown

The page of a contest is assembled from both tables: the announcements, which print a question and its
answer out of the clarification they point at, and below them the clarifications that have not reached the
announcements. The box that pops up reads the same two tables.
-/

namespace CpcJudge.Clarifications
namespace Site

variable (s : Site)

/-- `announcement.clarification`. -/
def clarificationOf (announcement : Announcement) : Option ContestClarification :=
  announcement.clarification.bind s.clarifications.get?

def carriesPublicAnswer (announcement : Announcement) : Bool :=
  (s.clarificationOf announcement).any fun c =>
    c.isPublic && !c.answer.isEmpty && decide (announcement.contest = some c.contest)

def hasSomethingToSay (announcement : Announcement) : Bool :=
  if announcement.clarification.isSome then s.carriesPublicAnswer announcement
  else !(strip announcement.body).isEmpty

/-- `ownership_filter`: a question of one's own, or of a team one is on the roster of. -/
def owns (profile : ℕ) (c : ContestClarification) : Bool :=
  match c.teamParticipation with
  | none => c.user = profile
  | some participation => s.teamEntries.any fun entry => entry.1 = participation && entry.2 = profile

/-! ## The page of a contest -/

def pageAnnouncements (contest : ℕ) : List Announcement :=
  ((s.announcements.rows.filter fun a => a.contest = some contest && a.isVisible).insertionSort
    fun a b => b.created ≤ a.created).filter s.hasSomethingToSay

/-- A visible announcement of the contest of the question points at it. -/
def isAnnounced (c : ContestClarification) : Bool :=
  s.announcements.rows.any fun a =>
    a.clarification = some c.id && a.isVisible && decide (a.contest = some c.contest)

def visibleClarifications (contest : ℕ) (profile : Option ℕ) (canEdit : Bool) : List ContestClarification :=
  let queryset := s.clarifications.rows.filter fun c =>
    c.contest = contest && !(c.isPublic && c.answered.isSome && s.isAnnounced c)
  if canEdit then queryset
  else
    match profile with
    | none => []
    | some profile => queryset.filter (s.owns profile)

/-- The clarifications printed on the page, once for each time. -/
def page (contest : ℕ) (profile : Option ℕ) (canEdit : Bool) : List ℕ :=
  (s.pageAnnouncements contest).filterMap (·.clarification) ++
    (s.visibleClarifications contest profile canEdit).map (·.id)

/-! ## The box -/

/-- What the box holds at most of either kind. -/
def maxActive : ℕ := 20

inductive Item where
  | announcement (announcement : Announcement)
  | clarification (clarification : ContestClarification)
  deriving DecidableEq

/-- Your own questions with an answer just for you, in the contest you are in while it runs. -/
def answeredForYou (profile contest now : ℕ) : List ContestClarification :=
  let answered := s.clarifications.rows.filter fun c =>
    s.owns profile c && decide (c.contest = contest) && c.answered.isSome && !c.isPublic &&
      decide (now < s.endTime contest)
  (answered.insertionSort fun a b => b.answered.getD 0 ≤ a.answered.getD 0).take maxActive

/-- Everything a caller should be shown at `now`: a profile, and the contest it is in. -/
def activeAnnouncements (profile contest : Option ℕ) (now : ℕ) : List Item :=
  let queryset := s.announcements.rows.filter fun a =>
    a.isVisible && a.expires.all (now < ·) && !(a.clarification.isNone && a.body.isEmpty) &&
      (a.contest.isNone || decide (a.contest = contest))
  let announcements := ((queryset.insertionSort fun a b => b.created ≤ a.created).take maxActive).filter
    s.hasSomethingToSay
  let answered :=
    match contest, profile with
    | some contest, some profile => s.answeredForYou profile contest now
    | _, _ => []
  announcements.map .announcement ++ answered.map .clarification

/-- The item prints the question and the answer of this clarification. -/
def Item.Prints (c : ContestClarification) : Item → Prop
  | .announcement a => a.clarification = some c.id
  | .clarification d => d.id = c.id

end Site
end CpcJudge.Clarifications
