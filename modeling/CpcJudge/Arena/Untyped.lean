import CpcJudge.Lib.Text
import Mathlib.Order.Lex
import Mathlib.Data.List.Sort

/-!
# `Arena.Untyped` — the rules as a request sends them

`clean_rules`, `clean_draw`, `clean_points` and `clean_best_of` on whatever JSON comes in. They keep what they know
and refuse the rest with a `ValidationError`, except that a text of digits is given to `int`, which does not read
all of them, and that a float is found among the lengths of a series.
-/

namespace CpcJudge
namespace Arena
namespace Untyped

/-- A JSON value, as Python reads it. A float is its value, and `none` is an infinity or not a number. The entries of
an object may repeat a key. -/
inductive Json where
  | null
  | bool (b : Bool)
  | int (n : ℤ)
  | float (value : Option ℚ)
  | str (text : Text)
  | list (items : List Json)
  | dict (entries : List (Text × Json))

/-- What a validator raises. -/
inductive Raised where
  | validationError (message : String)
  | valueError
  deriving DecidableEq

/-! ## Python -/

/-- `d[key] = value`. -/
def assign {α : Type} (d : List (Text × α)) (key : Text) (value : α) : List (Text × α) :=
  if key ∈ d.map (·.1) then d.map fun entry => if entry.1 = key then (key, value) else entry
  else d ++ [(key, value)]

/-- The dictionary of an object: of the entries of one key, the last. -/
def items {α : Type} (entries : List (Text × α)) : List (Text × α) :=
  entries.foldl (fun d entry => assign d entry.1 entry.2) []

/-- `d.get(key)`. -/
def get {α : Type} (d : List (Text × α)) (key : Text) : Option α := (d.find? (·.1 = key)).map (·.2)

/-- `value == n`, of a number. -/
def Json.equalsInt (n : ℤ) : Json → Bool
  | .bool b => (if b then 1 else 0) = n
  | .int m => m = n
  | .float value => value = some (n : ℚ)
  | _ => false

/-- `value == text`. -/
def Json.equalsStr (text : Text) : Json → Bool
  | .str s => s = text
  | _ => false

/-- The text of digits that a string is once stripped. `_int` also takes leading hyphens. -/
def digits (signed : Bool) (s : Text) : Text :=
  if signed then Text.lstripHyphens (Text.strip s) else Text.strip s

/-- `if isinstance(value, str) and value.strip().isdigit(): value = int(value.strip())`. -/
def Json.readDigits (signed : Bool) : Json → Except Raised Json
  | .str s =>
      if (digits signed s).isDigit then
        match Text.int? (Text.strip s) with
        | some n => .ok (.int n)
        | none => .error .valueError
      else .ok (.str s)
  | value => .ok value

/-! ## The rules of a game -/

/-- The keys of `BOUNDS`. -/
inductive NumberRule where
  | duration | countdown | penalty | maxAttempts
  deriving DecidableEq

/-- `BOOLEANS`. -/
inductive FlagRule where
  | partialPoints | blockPaste | showRival | screenCode
  deriving DecidableEq

/-- The keys of `DEFAULTS`. -/
inductive RuleName where
  | number (rule : NumberRule)
  | flag (rule : FlagRule)
  | languages
  deriving DecidableEq

namespace RuleName

def text : RuleName → Text
  | .number .duration => .ofString "duration"
  | .number .countdown => .ofString "countdown"
  | .number .penalty => .ofString "penalty"
  | .number .maxAttempts => .ofString "max_attempts"
  | .flag .partialPoints => .ofString "partial"
  | .flag .blockPaste => .ofString "block_paste"
  | .flag .showRival => .ofString "show_rival"
  | .flag .screenCode => .ofString "screen_code"
  | .languages => .ofString "languages"

/-- `LABELS`. -/
def label : RuleName → String
  | .number .duration => "Duration"
  | .number .countdown => "Countdown"
  | .number .penalty => "Penalty per failed attempt"
  | .number .maxAttempts => "Maximum attempts per problem"
  | .flag .partialPoints => "Partial points"
  | .flag .blockPaste => "Block pasting"
  | .flag .showRival => "Show rival progress"
  | .flag .screenCode => "Code on the screens"
  | .languages => "Languages"

def all : List RuleName :=
  [.number .duration, .number .countdown, .number .penalty, .number .maxAttempts, .flag .partialPoints,
    .flag .blockPaste, .flag .showRival, .flag .screenCode, .languages]

/-- The rule a key is the name of. -/
def ofText? (key : Text) : Option RuleName := all.find? (·.text = key)

def invalid (name : RuleName) : String := "Invalid value for " ++ name.label ++ "."

end RuleName

/-- `BOUNDS`. -/
def NumberRule.bounds : NumberRule → ℤ × ℤ
  | .duration => (1, 300)
  | .countdown => (3, 60)
  | .penalty => (0, 60)
  | .maxAttempts => (0, 50)

def maxLanguages : ℕ := 40
def pointBounds : ℤ × ℤ := (1, 10000)
def bestOfChoices : List ℤ := [1, 3, 5, 7, 9]

def inBounds (bounds : ℤ × ℤ) (n : ℤ) : Bool := bounds.1 ≤ n && n ≤ bounds.2

/-- Only a whole number within the bounds; a boolean is not one. -/
def bounded (bounds : ℤ × ℤ) (invalid outOfBounds : String) : Json → Except Raised Json
  | .int n => if inBounds bounds n then .ok (.int n) else .error (.validationError outOfBounds)
  | _ => .error (.validationError invalid)

/-- A number, or the text of one, within the bounds. -/
def cleanNumber (signed : Bool) (bounds : ℤ × ℤ) (invalid outOfBounds : String) (value : Json) : Except Raised Json :=
  (value.readDigits signed).bind (bounded bounds invalid outOfBounds)

/-- `_int`. -/
def cleanInt (value : Json) (rule : NumberRule) : Except Raised Json :=
  cleanNumber true rule.bounds (RuleName.number rule).invalid
    ((RuleName.number rule).label ++ " must be between " ++ toString rule.bounds.1 ++ " and " ++
      toString rule.bounds.2 ++ ".") value

/-- `value in ('true', 'on', '1', 1)`. -/
def Json.isOn (value : Json) : Bool :=
  ["true", "on", "1"].any (fun text => value.equalsStr (.ofString text)) || value.equalsInt 1

/-- `value in ('false', 'off', '0', 0, '')`. -/
def Json.isOff (value : Json) : Bool :=
  ["false", "off", "0", ""].any (fun text => value.equalsStr (.ofString text)) || value.equalsInt 0

/-- `_bool`. -/
def cleanBool (value : Json) (rule : FlagRule) : Except Raised Json :=
  match value with
  | .bool b => .ok (.bool b)
  | value =>
      if value.isOn then .ok (.bool true)
      else if value.isOff then .ok (.bool false)
      else .error (.validationError (RuleName.flag rule).invalid)

/-- The text of a string. -/
def Json.str? : Json → Option Text
  | .str s => some s
  | _ => none

/-- `isinstance(key, str) and 0 < len(key) <= 6`. -/
def Json.isLanguageKey (value : Json) : Bool := value.str?.any fun key => 0 < key.length && key.length ≤ 6

/-- `sorted(set(value))`. -/
def sortedSet (keys : List Text) : List Text := keys.dedup.insertionSort (· ≤ ·)

def cleanLanguages : Json → Except Raised Json
  | .list keys =>
      if maxLanguages < keys.length || !keys.all Json.isLanguageKey then .error (.validationError RuleName.languages.invalid)
      else .ok (.list ((sortedSet (keys.filterMap Json.str?)).map .str))
  | _ => .error (.validationError RuleName.languages.invalid)

/-- The check of a rule. -/
def RuleName.clean : RuleName → Json → Except Raised Json
  | .number rule, value => cleanInt value rule
  | .flag rule, value => cleanBool value rule
  | .languages, value => cleanLanguages value

/-- What `clean_rules` does with an entry; `none` when it drops it. -/
def cleanRule (entry : Text × Json) : Except Raised (Option (Text × Json)) :=
  match RuleName.ofText? entry.1 with
  | some name => (name.clean entry.2).map fun value => some (entry.1, value)
  | none => .ok none

/-- One turn of the loops of `clean_rules` and `clean_draw`. -/
def collectNext {ι : Type} (clean : ι → Except Raised (Option (Text × Json))) (cleaned : List (Text × Json)) (i : ι) :
    Except Raised (List (Text × Json)) :=
  (clean i).map fun entry => entry.elim cleaned fun e => assign cleaned e.1 e.2

/-- The loops, from an empty dictionary. -/
def collect {ι : Type} (clean : ι → Except Raised (Option (Text × Json))) (l : List ι) :
    Except Raised (List (Text × Json)) :=
  l.foldlM (collectNext clean) []

def cleanRules : Json → Except Raised Json
  | .null => .ok (.dict [])
  | .dict entries => (collect cleanRule (items entries)).map .dict
  | _ => .error (.validationError "Invalid rules.")

/-! ## The drawing of problems -/

/-- `DRAW_KEYS`. -/
inductive DrawKey where
  | autoDraw | drawCount | levelMin | levelMax
  deriving DecidableEq

def DrawKey.text : DrawKey → Text
  | .autoDraw => .ofString "auto_draw"
  | .drawCount => .ofString "draw_count"
  | .levelMin => .ofString "level_min"
  | .levelMax => .ofString "level_max"

def drawKeys : List DrawKey := [.autoDraw, .drawCount, .levelMin, .levelMax]

/-- `DRAW_BOUNDS`, the same for the three numbers. -/
def drawBounds : ℤ × ℤ := (1, 5)

/-- `value in (None, '')`. -/
def Json.isBlank : Json → Bool
  | .null => true
  | value => value.equalsStr []

/-- The value `clean_draw` keeps under a key that is there. -/
def cleanDrawValue (key : DrawKey) (value : Json) : Except Raised Json :=
  if value.isBlank then .ok .null
  else
    match key with
    | .autoDraw =>
        match value with
        | .bool b => .ok (.bool b)
        | value => .ok (.bool value.isOn)
    | _ =>
        cleanNumber false drawBounds "Problems per game and difficulty go from 1 to 5."
          "Problems per game and difficulty go from 1 to 5." value

def cleanDrawKey (data : List (Text × Json)) (key : DrawKey) : Except Raised (Option (Text × Json)) :=
  match get data key.text with
  | none => .ok none
  | some value => (cleanDrawValue key value).map fun value => some (key.text, value)

/-- `low and high and low > high`. -/
def crossed (cleaned : List (Text × Json)) : Bool :=
  match get cleaned DrawKey.levelMin.text, get cleaned DrawKey.levelMax.text with
  | some (.int low), some (.int high) => low ≠ 0 && high ≠ 0 && high < low
  | _, _ => false

def cleanDraw : Json → Except Raised Json
  | .null => .ok (.dict [])
  | .dict entries =>
      (collect (cleanDrawKey (items entries)) drawKeys).bind fun cleaned =>
        if crossed cleaned then .error (.validationError "The lowest difficulty cannot be above the highest.")
        else .ok (.dict cleaned)
  | _ => .error (.validationError "Invalid settings.")

/-! ## Points and series -/

def cleanPoints (value : Json) : Except Raised Json :=
  match value with
  | .bool _ => .error (.validationError "Invalid points.")
  | value =>
      cleanNumber false pointBounds "Points must be between 1 and 10000." "Points must be between 1 and 10000." value

def cleanBestOf (value : Json) : Except Raised Json :=
  (value.readDigits false).bind fun
    | .bool _ => .error (.validationError "Best of must be an odd number between 1 and 9.")
    | value =>
        if bestOfChoices.any value.equalsInt then .ok value
        else .error (.validationError "Best of must be an odd number between 1 and 9.")

end Untyped
end Arena
end CpcJudge
