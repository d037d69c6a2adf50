import CpcJudge.Contest.Formats
import CpcJudge.Lib.Ranking

/-!
# `Contest.Freeze` — participations and the frozen scoreboard

A contest can freeze its scoreboard over its last minutes. Nothing happens at that moment: the first
recomputation of a participation inside its own freeze window first keeps a copy of the totals, and the
public board reads the copy where there is one and the live totals where there is not.

A history is a list of events, each with the moment it happened: recomputations, judged submissions, and the
changes an organizer makes to the freeze.
-/

namespace CpcJudge
namespace Contest

/-- `Contest`: its window, its freeze and how it is scored. -/
structure ContestRow where
  startTime : Time
  endTime : Time
  timeLimit : Option Time
  freezeMinutes : Option ℕ
  scoreboardRevealed : Bool
  format : Format
  formatConfig : FormatConfig
  pointsPrecision : ℕ
  problems : ℕ → ContestProblem

/-- `freeze_delta`; no minutes are no freeze. -/
def ContestRow.freezeDelta (c : ContestRow) : Option Time :=
  match c.freezeMinutes with
  | some 0 | none => none
  | some minutes => some (minutes * 60000000)

/-- `freeze_active`. -/
def ContestRow.freezeActive (c : ContestRow) : Bool := c.freezeDelta.isSome && !c.scoreboardRevealed

/-- The columns a format writes on a participation. -/
structure Standing where
  score : ℚ := 0
  cumtime : ℤ := 0
  tiebreaker : ℚ := 0
  formatData : Option FormatData := none
  deriving DecidableEq, Repr

/-- The columns of the frozen copy. -/
structure FrozenCopy where
  score : Option ℚ := none
  cumtime : Option ℤ := none
  tiebreaker : Option ℚ := none
  formatData : Option FormatData := none
  at? : Option Time := none
  deriving DecidableEq, Repr

/-- `ContestParticipation`, with its contest submissions. -/
structure ContestParticipation where
  id : ℕ
  realStart : Time
  virtual : ℤ
  team : Option ℕ
  isDisqualified : Bool
  submissions : List ContestSubmission := []
  live : Standing := {}
  frozen : FrozenCopy := {}

namespace ContestParticipation

/-- `LIVE` and `SPECTATE`. -/
def LIVE : ℤ := 0
def SPECTATE : ℤ := -1

variable (p : ContestParticipation) (c : ContestRow)

/-- `start`. -/
def start : Time :=
  if c.timeLimit = none ∧ (p.virtual = LIVE ∨ p.virtual = SPECTATE) then c.startTime else p.realStart

/-- `end_time`. -/
def endTime : Time :=
  if p.virtual = SPECTATE then c.endTime
  else if p.virtual ≠ 0 then
    match c.timeLimit with
    | some limit => if limit ≠ 0 then p.realStart + limit else p.realStart + (c.endTime - c.startTime)
    | none => p.realStart + (c.endTime - c.startTime)
  else
    match c.timeLimit with
    | some limit => min (p.realStart + limit) c.endTime
    | none => c.endTime

/-- `freeze_starts_at`: measured from the end of the participation. -/
def freezeStartsAt : Option Time := c.freezeDelta.map fun delta => p.endTime c - delta

/-- `is_frozen`. -/
def isFrozen (now : Time) : Bool := c.freezeActive && (p.freezeStartsAt c).any (· ≤ now)

/-- `freeze_scoreboard`. -/
def freezeScoreboard (now : Time) : ContestParticipation :=
  if p.frozen.at?.isSome || !p.isFrozen c now then p
  else
    { p with frozen :=
        { score := some p.live.score, cumtime := some p.live.cumtime, tiebreaker := some p.live.tiebreaker
          formatData := p.live.formatData, at? := some now } }

/-- What the format reads of the participation. -/
def scored : Participation :=
  { start := p.start c, endTime := p.endTime c, problems := c.problems, submissions := p.submissions }

/-- `recompute_results`: the copy first, then the format, and a disqualified participation loses it all. -/
def recomputeResults (now : Time) : ContestParticipation :=
  let p := p.freezeScoreboard c now
  let saved := (updateParticipation (p.scored c) c.formatConfig c.format c.pointsPrecision).save
  let live : Standing :=
    { score := saved.score, cumtime := saved.cumtime, tiebreaker := saved.tiebreaker, formatData := some saved.formatData }
  { p with live := if p.isDisqualified then { live with score := -9999, cumtime := 0, tiebreaker := 0 } else live }

end ContestParticipation

/-! ## Events -/

/-- What happens to a contest and its participations. A verdict, a rejudge or a new submission changes the contest
submissions of a participation; the totals only change when they are recomputed. -/
inductive Event where
  | recompute (participation : ℕ)
  | judged (participation : ℕ) (submissions : List ContestSubmission)
  | reveal
  | freezeAgain
  | setEndTime (endTime : Time)
  | setFreezeMinutes (minutes : Option ℕ)

/-- An event, and when it happens. -/
structure Timed where
  now : Time
  event : Event

/-- The events that change the freeze. -/
def Event.isSetting : Event → Bool
  | .recompute _ | .judged _ _ => false
  | _ => true

/-- `reveal_scoreboard`, `hide_scoreboard` and the change form: they write the contest and nothing else. -/
def ContestRow.after (c : ContestRow) : Event → ContestRow
  | .recompute _ | .judged _ _ => c
  | .reveal => if c.freezeMinutes.isSome then { c with scoreboardRevealed := true } else c
  | .freezeAgain => if c.freezeMinutes.isSome then { c with scoreboardRevealed := false } else c
  | .setEndTime endTime => { c with endTime }
  | .setFreezeMinutes minutes => { c with freezeMinutes := minutes }

/-- A participation after an event of its contest. -/
def ContestParticipation.after (p : ContestParticipation) (c : ContestRow) (e : Timed) : ContestParticipation :=
  match e.event with
  | .recompute id => if p.id = id then p.recomputeResults c e.now else p
  | .judged id submissions => if p.id = id then { p with submissions } else p
  | _ => p

/-- A contest and its participations. -/
structure Board where
  contest : ContestRow
  rows : List ContestParticipation

def Board.after (b : Board) (e : Timed) : Board :=
  { contest := b.contest.after e.event, rows := b.rows.map (·.after b.contest e) }

/-- The board at the end of a history. -/
def Board.run (b : Board) (events : List Timed) : Board := events.foldl Board.after b

/-! ## The public board -/

/-- `FrozenParticipation`: the columns a reader of the frozen board sees. -/
structure Shown where
  score : Option ℚ
  cumtime : Option ℤ
  tiebreaker : Option ℚ
  formatData : Option FormatData
  deriving DecidableEq, Repr

/-- The live columns, as they are shown. -/
def Standing.shown (s : Standing) : Shown := ⟨some s.score, some s.cumtime, some s.tiebreaker, s.formatData⟩

def ContestParticipation.shown (p : ContestParticipation) : Shown :=
  if p.frozen.at?.isSome then ⟨p.frozen.score, p.frozen.cumtime, p.frozen.tiebreaker, p.frozen.formatData⟩
  else p.live.shown

/-- A row of the frozen ranking, with the columns it is ordered by. -/
structure PublicRow where
  id : ℕ
  isDisqualified : Bool
  shownScore : ℚ
  shownCumtime : ℤ
  shownTiebreaker : ℚ
  shown : Shown
  deriving DecidableEq, Repr

/-- The annotations of the queryset: `Coalesce('frozen_score', 'score')` and its like. -/
def ContestParticipation.publicRow (p : ContestParticipation) : PublicRow where
  id := p.id
  isDisqualified := p.isDisqualified
  shownScore := p.frozen.score.getD p.live.score
  shownCumtime := p.frozen.cumtime.getD p.live.cumtime
  shownTiebreaker := p.frozen.tiebreaker.getD p.live.tiebreaker
  shown := p.shown

/-- `order_by('is_disqualified', '-shown_score', 'shown_cumtime', 'shown_tiebreaker', 'id')`. -/
def PublicRow.key (r : PublicRow) : Bool ×ₗ (ℚ ×ₗ (ℤ ×ₗ (ℚ ×ₗ ℕ))) :=
  toLex (r.isDisqualified, toLex (-r.shownScore, toLex (r.shownCumtime, toLex (r.shownTiebreaker, r.id))))

/-- `contest_ranking_list` with `frozen=True`, for the teams or for the individuals. -/
def Board.frozenRanking (b : Board) (teams : Bool) : List PublicRow :=
  Ranking.sortBy PublicRow.key
    ((b.rows.filter fun p => p.virtual = 0 && p.team.isSome == teams).map (·.publicRow))

end Contest
end CpcJudge
