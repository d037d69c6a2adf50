import CpcJudge.Arena.Awaited
import CpcJudge.Arena.Scoring.Certain
import CpcJudge.Arena.Scoring.Stuck
import CpcJudge.Arena.Inversion
import CpcJudge.Arena.Gate
import CpcJudge.Arena.ThirdPlace
import CpcJudge.Arena.Seeding
import CpcJudge.Contest.Awards
import CpcJudge.Contest.Totals
import CpcJudge.Contest.Frozen
import CpcJudge.Contest.WindowCache
import CpcJudge.Contest.Penalties
import CpcJudge.Contest.Scale
import CpcJudge.Bridge.Dispatch
import CpcJudge.Bridge.Reports
import CpcJudge.Bridge.Names
import CpcJudge.Bridge.Delivery
import CpcJudge.Bridge.Idle
import CpcJudge.Bridge.Posts
import CpcJudge.Arena.Current
import CpcJudge.Arena.RatingRun
import CpcJudge.Arena.Refusals
import CpcJudge.Arena.Resend
import CpcJudge.Arena.Busy
import CpcJudge.Arena.Redraw
import CpcJudge.Arena.Deadlock
import CpcJudge.Arena.History
import CpcJudge.Arena.Kept
import CpcJudge.Arena.Medals
import CpcJudge.Live.Sent
import CpcJudge.Mail.Once
import CpcJudge.Mail.Recipients
import CpcJudge.Access.Contests
import CpcJudge.Access.Problems
import CpcJudge.Access.History
import CpcJudge.Clarifications.Shown
import CpcJudge.ContestTeams.Once
import CpcJudge.Comments.Retry
import CpcJudge.Ratings.Profiles
import CpcJudge.Ratings.Ranks
import CpcJudge.Ratings.Performances
import CpcJudge.Teams.Roster
import CpcJudge.Problems.Dependencies
import CpcJudge.Markdown.Remembered
import CpcJudge.Pages.Infinite
import CpcJudge.Pages.Digg
import CpcJudge.Judging.Solved
import CpcJudge.Submissions.Limit
import CpcJudge.Contest.BottomUp
import CpcJudge.Contest.Labels
import CpcJudge.Login.TwoFactor
import CpcJudge.Login.Redirects
import CpcJudge.Login.ApiToken
import CpcJudge.Balloons.Mark
import CpcJudge.Problems.Files
