import CpcJudge.Arena.Tournament

/-!
# `Arena.System` — the arena as its users drive it

What the pages can ask for: the organizer requests of `judge/views/arena_manage.py`, the polls that call `tick`,
the submissions of the players and the verdicts that arrive for them. Every operation is one transaction. A
successful one leaves the tables it wrote, a refused one leaves them as they were; a run is any sequence of
operations from the empty tables, each in whatever state the rest of the site is at that moment.
-/

namespace CpcJudge
namespace Arena

open Scoring (Attempt)

/-! ## Operations -/

/-- The actions of `manage_match_action`. -/
inductive MatchAction where
  | call
  | start (game : Option GameId) (force : Bool)
  | extend (game : GameId) (minutes : ℤ)
  | cancelGame (game : GameId)
  | declare (game : GameId) (slot : Slot)
  | finalize (game : GameId)
  | walkover (slot : Slot)
  | setWinner (slot : Slot)
  | cancel
  | problems (game : Option GameId) (entries : List Entry) (number : Option ℕ)
  | addGame
  | update (bestOf : Option ℕ) (rules : Option Rules) (title : Option String) (display : Pair (Option String))
  | replace (slot : Slot) (profile : Option ProfileId) (display : String)
  deriving DecidableEq

/-- The actions of `manage_tournament_action`, except filling the matches. -/
inductive TournamentAction where
  | update (name description : Option String) (rules : Option Rules) (bank : Option (Option BankId))
      (thirdPlace : Option Bool) (draw : Option Rules.Draw) (showInHistory : Option Bool)
      (plannedAt : Option (Option Time))
  | participants (profiles : List (Option ProfileId)) (seeding : Option Seeding)
  | round (number : ℕ) (bestOf : Option ℕ) (rules : Option Rules) (name : Option String)
      (draw : Option Rules.Draw)
  | generate
  | start
  | archive
  deriving DecidableEq

/-- What an organizer asks for. A match or a tournament is asked for with the version the page was showing. -/
inductive Request where
  | createDuel (players : Pair (Option ProfileId)) (games : List (List Entry)) (bestOf : ℕ) (rules : Rules)
      (display : Pair String) (title : String) (call : Bool) (ranking : Ranking)
  | onMatch (id : MatchId) (version : Option ℤ) (action : MatchAction)
  | createTournament (name : String) (profiles : List (Option ProfileId)) (seeding : Seeding)
      (thirdPlace : Bool) (rules : Rules) (description : String) (bank : Option BankId)
      (showInHistory : Bool) (plannedAt : Option Time) (ranking : Ranking)
  | onTournament (id : TournamentId) (version : Option ℤ) (action : TournamentAction)
  | setShowInHistory (id : TournamentId) (shown : Bool)
  | fill (id : MatchId)
  | setTournamentRanking (id : TournamentId) (value : Ranking)
  | setMatchRanking (id : MatchId) (value : Ranking)
  | createScreen (name : String)
  | showOnScreen (id : ScreenId) (mode : ScreenMode) (battle : Option MatchId)
      (tournament : Option TournamentId) (message : String) (followLive : Option Bool) (version : Option ℤ)
  | renameScreen (id : ScreenId) (name : String)
  | regenerateScreenToken (id : ScreenId)
  deriving DecidableEq

/-- Whatever happens in the arena. -/
inductive Op where
  | organize (actor : ProfileId) (request : Request)
  /-- A page with an old copy of a game and its own idea of the time asks for its state. -/
  | tick (id : MatchId) (game : Game) (now : Time)
  | submit (profile : ProfileId) (superuser : Bool) (id : MatchId) (game : GameId) (order : ℕ)
      (language source : String)
  /-- The judges change the submissions of a game. -/
  | judge (id : MatchId) (game : GameId) (attempts : Pair (List Attempt))
  deriving DecidableEq

/-- An operation of an organizer. -/
def Op.organizer : Op → Bool
  | .organize _ _ => true
  | _ => false

/-! ## What they run -/

def MatchAction.run (site : Site) (actor : ProfileId) (id : MatchId) (version : Option ℤ) :
    MatchAction → ArenaM Unit
  | .call => callMatch site actor id version
  | .start game force => discard (startGame site actor id game force version)
  | .extend game minutes => extendGame actor id game minutes version
  | .cancelGame game => Arena.cancelGame site actor id game version
  | .declare game slot => declareWinner site actor id game slot version
  | .finalize game => finalizeVerification site actor id game version
  | .walkover slot => Arena.walkover site actor id slot version
  | .setWinner slot => Arena.setWinner site actor id slot version
  | .cancel => cancelMatch site actor id version
  | .problems game entries number => setGameProblems site actor id game entries version number
  | .addGame => Arena.addGame id version
  | .update bestOf rules title display => updateMatch actor id version bestOf rules title display
  | .replace slot profile display => replacePlayer site actor id slot profile display version

def TournamentAction.run (site : Site) (actor : ProfileId) (id : TournamentId) (version : Option ℤ) :
    TournamentAction → ArenaM Unit
  | .update name description rules bank thirdPlace draw showInHistory plannedAt =>
    updateTournament site actor id version name description rules bank thirdPlace draw showInHistory plannedAt
  | .participants profiles seeding => setParticipants site actor id profiles seeding version
  | .round number bestOf rules name draw => setRound actor id number bestOf rules name version draw
  | .generate => generateBracket site actor id version
  | .start => startTournament site actor id version
  | .archive => archiveTournament actor id version

def Request.run (site : Site) (actor : ProfileId) : Request → ArenaM Unit
  | .createDuel players games bestOf rules display title call ranking =>
    discard (Arena.createDuel site actor players games bestOf rules display title call ranking)
  | .onMatch id version action => action.run site actor id version
  | .createTournament name profiles seeding thirdPlace rules description bank showInHistory plannedAt ranking =>
    discard (Arena.createTournament site actor name profiles seeding thirdPlace rules description bank showInHistory
      plannedAt ranking)
  | .onTournament id version action => action.run site actor id version
  | .setShowInHistory id shown => Arena.setShowInHistory actor id shown
  | .fill id => discard (fillMatch site actor id)
  | .setTournamentRanking id value => Arena.setTournamentRanking actor id value
  | .setMatchRanking id value => Arena.setMatchRanking actor id value
  | .createScreen name => Arena.createScreen actor name
  | .showOnScreen id mode battle tournament message followLive version =>
    Arena.showOnScreen id mode battle tournament message followLive version
  | .renameScreen id name => Arena.renameScreen id name
  | .regenerateScreenToken id => Arena.regenerateScreenToken id

/-- Verdicts change nothing but the submissions of the contest of a game, and only what the judges made of them. -/
def judge (id : MatchId) (gameId : GameId) (attempts : Pair (List Attempt)) : ArenaM Unit := do
  let db ← tables
  let m ← orRefuse (db.match? id) .noMatch
  let game ← gameOf m gameId
  refuseIf (∃ slot ∈ [Slot.a, .b], (attempts.get slot).map (·.submission) ≠ game.submissions slot) .noGame
  saveMatch (m.setGame { game with contest := game.contest.map fun c => { c with attempts } })

def Op.run (site : Site) : Op → ArenaM Unit
  | .organize actor request => request.run site actor
  | .tick id game now => Arena.tick site id game now
  | .submit profile superuser id game order language source =>
    Arena.submit site profile superuser id game order language source
  | .judge id game attempts => Arena.judge id game attempts

/-! ## Runs -/

/-- How an operation ends on some tables. -/
def Op.result (site : Site) (op : Op) (db : Db) : EStateM.Result ArenaError Txn Unit := op.run site { db }

/-- The tables after an operation: a refused one is rolled back. -/
def Op.after (site : Site) (op : Op) (db : Db) : Db :=
  match op.result site db with
  | .ok _ s => s.db
  | .error _ _ => db

/-- The operation is done, not refused. -/
def Op.succeeds (site : Site) (op : Op) (db : Db) : Bool :=
  match op.result site db with
  | .ok _ _ => true
  | .error _ _ => false

/-- The tables after a sequence of operations. -/
def Db.play (db : Db) (steps : List (Site × Op)) : Db :=
  steps.foldl (fun db step => step.2.after step.1 db) db

/-- The tables some run from `db` reaches, every operation of which `allowed` lets through. -/
inductive Run (allowed : Site → Op → Db → Prop) (db : Db) : Db → Prop
  | refl : Run allowed db db
  | step {db' : Db} (site : Site) (op : Op) (run : Run allowed db db') (ok : allowed site op db') :
      Run allowed db (op.after site db')

namespace Run
variable {allowed allowed' : Site → Op → Db → Prop} {db db' : Db}

theorem mono (h : ∀ site op db, allowed site op db → allowed' site op db) (run : Run allowed db db') :
    Run allowed' db db' := by
  induction run with
  | refl => exact .refl
  | step site op _ ok ih => exact .step site op ih (h _ _ _ ok)

/-- What every allowed step keeps holds along the run. -/
theorem keeps {I : Db → Prop} (hstep : ∀ site op db, allowed site op db → I db → I (op.after site db))
    (run : Run allowed db db') (h : I db) : I db' := by
  induction run with
  | refl => exact h
  | step site op _ ok ih => exact hstep site op _ ok ih

end Run

/-- Any operation is allowed. -/
abbrev anyStep (_ : Site) (_ : Op) (_ : Db) : Prop := True

/-- The tables a run from the empty ones reaches. -/
abbrev Reachable (db : Db) : Prop := Run anyStep {} db

/-- A sequence of operations that are allowed whatever the tables is a run. -/
theorem Run.ofSteps {allowed : Site → Op → Db → Prop} {db : Db} (steps : List (Site × Op))
    (ok : ∀ step ∈ steps, ∀ db, allowed step.1 step.2 db) : Run allowed db (db.play steps) := by
  induction steps using List.reverseRecOn with
  | nil => exact .refl
  | append_singleton steps step ih =>
      rw [Db.play, List.foldl_append]
      exact .step step.1 step.2 (ih fun s hs => ok s (List.mem_append_left _ hs)) (ok step (by simp) _)

/-- Every operation of a sequence is allowed where it comes. -/
def AllowsAll (allowed : Site → Op → Db → Prop) : Db → List (Site × Op) → Prop
  | _, [] => True
  | db, step :: steps => allowed step.1 step.2 db ∧ AllowsAll allowed (step.2.after step.1 db) steps

theorem Run.ofAllowed {allowed : Site → Op → Db → Prop} {db db' : Db} {steps : List (Site × Op)}
    (run : Run allowed db db') (h : AllowsAll allowed db' steps) : Run allowed db (db'.play steps) := by
  induction steps generalizing db' with
  | nil => exact run
  | cons step steps ih => exact ih (.step step.1 step.2 run h.1) h.2

/-- A sequence of operations is a run. -/
theorem Run.play {db : Db} (steps : List (Site × Op)) : Run anyStep db (db.play steps) :=
  Run.ofSteps steps fun _ _ _ => trivial

end Arena
end CpcJudge
