import CpcJudge.Arena.Basic

/-!
# `Arena.Rules` — the rules of a game

`judge/arena/rules.py`: what an organizer may configure, its defaults and its bounds. Rules are small
JSON objects stored at three levels (tournament, round, match) and merged in that order, so every key of
`Rules` may be missing. Numbers are naturals because `clean_rules` refuses anything below a bound that is
itself at least zero.
-/

namespace CpcJudge
namespace Arena

/-- A refusal meant for the person who asked (`engine.ArenaError`): the text and the status of the
    answer. -/
structure ArenaError where
  message : String
  status : ℕ := 400
  deriving DecidableEq, Repr

/-- A set of rules: the keys of `DEFAULTS`, and the keys of `DRAW_KEYS` that a tournament or a round
    stores beside them. -/
structure Rules where
  duration : Option ℕ := none
  countdown : Option ℕ := none
  partialPoints : Option Bool := none
  penalty : Option ℕ := none
  maxAttempts : Option ℕ := none
  languages : Option (List String) := none
  blockPaste : Option Bool := none
  showRival : Option Bool := none
  screenCode : Option Bool := none
  autoDraw : Option Bool := none
  drawCount : Option ℕ := none
  levelMin : Option ℕ := none
  levelMax : Option ℕ := none
  deriving DecidableEq, Repr

namespace Rules

/-- `DEFAULTS`. -/
def defaults : Rules where
  duration := some 15
  countdown := some 10
  partialPoints := some false
  penalty := some 0
  maxAttempts := some 0
  languages := some []
  blockPaste := some true
  showRival := some true
  screenCode := some true

/-- `LABELS`, for the messages of the validators. -/
inductive Key where
  | duration | countdown | penalty | maxAttempts | languages
  deriving DecidableEq, Repr

def Key.label : Key → String
  | .duration => "Duration"
  | .countdown => "Countdown"
  | .penalty => "Penalty per failed attempt"
  | .maxAttempts => "Maximum attempts per problem"
  | .languages => "Languages"

/-- `BOUNDS`; the languages have none. -/
def Key.bounds : Key → ℕ × ℕ
  | .duration => (1, 300)
  | .countdown => (3, 60)
  | .penalty => (0, 60)
  | .maxAttempts => (0, 50)
  | .languages => (0, 0)

def maxLanguages : ℕ := 40
def defaultPoints : ℕ := 100
def pointBounds : ℕ × ℕ := (1, 10000)
def bestOfChoices : List ℕ := [1, 3, 5, 7, 9]

/-- `_int` on a value that is already a whole number. -/
def cleanInt (name : Key) : Option ℕ → Except ArenaError (Option ℕ)
  | none => .ok none
  | some value =>
    if name.bounds.1 ≤ value ∧ value ≤ name.bounds.2 then .ok (some value)
    else .error ⟨name.label ++ " must be between " ++ toString name.bounds.1 ++ " and " ++
      toString name.bounds.2 ++ ".", 400⟩

/-- Drop the repeated keys and sort, as `sorted(set(value))`. -/
def sortedSet (value : List String) : List String := value.dedup.insertionSort (· ≤ ·)

def cleanLanguages : Option (List String) → Except ArenaError (Option (List String))
  | none => .ok none
  | some value =>
    if maxLanguages < value.length ∨ ¬ value.all (fun key => 0 < key.length && key.length ≤ 6) then
      .error ⟨"Invalid value for " ++ Key.languages.label ++ ".", 400⟩
    else .ok (some (sortedSet value))

/-- `clean_rules` on an object whose values already have the right type: the drawing keys are not rules
    of a game and are dropped, the numbers are held to their bounds, the languages are sorted. -/
def clean (data : Rules) : Except ArenaError Rules := do
  let duration ← cleanInt .duration data.duration
  let countdown ← cleanInt .countdown data.countdown
  let penalty ← cleanInt .penalty data.penalty
  let maxAttempts ← cleanInt .maxAttempts data.maxAttempts
  let languages ← cleanLanguages data.languages
  return { duration, countdown, penalty, maxAttempts, languages, partialPoints := data.partialPoints,
           blockPaste := data.blockPaste, showRival := data.showRival, screenCode := data.screenCode }

/-- `merge`: the defaults, overridden by each layer in turn. The drawing keys are never merged. -/
def merge (layers : List Rules) : Rules :=
  layers.foldl (fun rules layer =>
    { rules with
      duration := layer.duration <|> rules.duration
      countdown := layer.countdown <|> rules.countdown
      partialPoints := layer.partialPoints <|> rules.partialPoints
      penalty := layer.penalty <|> rules.penalty
      maxAttempts := layer.maxAttempts <|> rules.maxAttempts
      languages := layer.languages <|> rules.languages
      blockPaste := layer.blockPaste <|> rules.blockPaste
      showRival := layer.showRival <|> rules.showRival
      screenCode := layer.screenCode <|> rules.screenCode }) defaults

/-- The drawing settings a form sends (`clean_draw`): a key that is absent stays as it is, a key set to
    `none` is removed. -/
structure Draw where
  autoDraw : Option (Option Bool) := none
  drawCount : Option (Option ℕ) := none
  levelMin : Option (Option ℕ) := none
  levelMax : Option (Option ℕ) := none
  deriving DecidableEq, Repr

/-- `DRAW_BOUNDS`, the same for the three numbers. -/
def drawBounds : ℕ × ℕ := (1, 5)

def cleanDrawInt : Option (Option ℕ) → Except ArenaError Unit
  | some (some value) =>
    if drawBounds.1 ≤ value ∧ value ≤ drawBounds.2 then .ok ()
    else .error ⟨"Problems per game and difficulty go from 1 to 5.", 400⟩
  | _ => .ok ()

/-- `clean_draw`. -/
def cleanDraw (data : Draw) : Except ArenaError Draw := do
  cleanDrawInt data.drawCount
  cleanDrawInt data.levelMin
  cleanDrawInt data.levelMax
  match data.levelMin, data.levelMax with
  | some (some low), some (some high) =>
    if high < low then throw ⟨"The lowest difficulty cannot be above the highest.", 400⟩ else return data
  | _, _ => return data

/-- `with_draw`: the game rules replaced by `rules` when there are any, the drawing settings updated by
    `draw`; saving one never loses the other. -/
def withDraw (stored : Rules) (rules : Option Rules) (draw : Draw) : Rules :=
  let game := rules.getD stored
  { game with
    autoDraw := draw.autoDraw.getD stored.autoDraw
    drawCount := draw.drawCount.getD stored.drawCount
    levelMin := draw.levelMin.getD stored.levelMin
    levelMax := draw.levelMax.getD stored.levelMax }

/-- `clean_best_of`. -/
def cleanBestOf (value : ℕ) : Except ArenaError ℕ :=
  if value ∈ bestOfChoices then .ok value
  else .error ⟨"Best of must be an odd number between 1 and 9.", 400⟩

/-- `clean_points`. -/
def cleanPoints (value : ℕ) : Except ArenaError ℕ :=
  if pointBounds.1 ≤ value ∧ value ≤ pointBounds.2 then .ok value
  else .error ⟨"Points must be between 1 and 10000.", 400⟩

/-- Every default passes the check of its own key. -/
theorem clean_defaults : clean defaults = .ok defaults := by decide

/-- A series has an odd length, so it is decided by the majority of its games. -/
theorem cleanBestOf_ok {value best : ℕ} (h : cleanBestOf value = .ok best) :
    best = value ∧ best % 2 = 1 := by
  unfold cleanBestOf at h
  split at h
  · rename_i hmem
    injection h with h
    subst h
    exact ⟨rfl, by simp [bestOfChoices] at hmem; omega⟩
  · cases h

end Rules
end Arena
end CpcJudge
