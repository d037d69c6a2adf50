import CpcJudge.Arena.Engine
import CpcJudge.Lib.Dict

/-!
# `Arena.Held` — keeping a player inside the arena

Until when a battle holds its players (`lock_until`) and the settings this depends on; the players held, as the cache
keeps them (`lock_entries_from_db`); and what a held player who asks for another page is answered (`locked_response`).
The cache is always there: what the code does when it raises is left out.
-/

namespace CpcJudge
namespace Arena

/-! ## Settings -/

/-- `arena_setting`: the whole number the settings give, or the default when they give none or one that makes no
    sense. -/
def arenaSetting (value : Option ℤ) (default low high : ℤ) : ℤ :=
  (value.filter fun v => low ≤ v && v ≤ high).getD default

/-- The `CPC_ARENA_*` of the settings. -/
structure Settings where
  lockIdleMinutes : Option ℤ := none
  provisionalGames : Option ℤ := none
  inactiveDays : Option ℤ := none
  deriving DecidableEq, Repr

namespace Settings

/-- `lock_idle_minutes`. -/
def idleMinutes (s : Settings) : ℤ := arenaSetting s.lockIdleMinutes 60 5 (24 * 60)

/-- `provisional_games`. -/
def provisional (s : Settings) : ℤ := arenaSetting s.provisionalGames 3 1 100

/-- `inactive_days`. -/
def inactive (s : Settings) : ℤ := arenaSetting s.inactiveDays 365 30 3650

end Settings

/-! ## Until when -/

/-- The moments of a game that keep its players in the arena. -/
def Game.lockMoments (g : Game) : List Time :=
  g.startedAt.toList ++ g.finishedAt.toList ++ if g.status.active then g.endsAt.toList else []

/-- `lock_until`: the last thing that happened in the battle, and the idle minutes after it. -/
def lockUntil (settings : Settings) (m : Match) (games : List Game) : Time :=
  (games.flatMap Game.lockMoments).foldl max (m.calledAt.getD m.createdAt) + minutes settings.idleMinutes

/-! ## The players held -/

open Scoring (round3 totalSeconds)

/-- What the cache holds under `LOCK_KEY`: the UNIX time until which each player is held. -/
abbrev LockCache := Option (List (ProfileId × ℚ))

/-- `entries[pk] = max(entries.get(pk, 0), stamp)`. -/
def holdUntil (stamp : ℚ) (entries : List (ProfileId × ℚ)) (pk : ProfileId) : List (ProfileId × ℚ) :=
  Dict.set entries pk (max (((entries.find? (·.1 = pk)).map (·.2)).getD 0) stamp)

/-- The body of the loop of `lock_entries_from_db` over the matches. -/
def lockEntry (settings : Settings) (now : Time) (entries : List (ProfileId × ℚ)) (m : Match) : List (ProfileId × ℚ) :=
  let until_ := lockUntil settings m m.games.rows
  if until_ ≤ now then entries
  else (m.players.a.toList ++ m.players.b.toList).foldl (holdUntil (round3 (totalSeconds until_))) entries

/-- `lock_entries_from_db`. -/
def lockEntries (settings : Settings) (db : Db) (now : Time) : List (ProfileId × ℚ) :=
  (db.battles.rows.filter (·.status.locking)).foldl (lockEntry settings now) []

/-- `refresh_lock`. -/
def refreshLock (settings : Settings) (db : Db) (now : Time) : LockCache := some (lockEntries settings db now)

/-- `ensure_lock`. -/
def ensureLock (settings : Settings) (db : Db) (now : Time) (cache : LockCache) : LockCache :=
  if cache = none then refreshLock settings db now else cache

/-- `_still_held`, and the cache it leaves. -/
def stillHeld (settings : Settings) (db : Db) (profile : ProfileId) (now : Time) (cache : LockCache) :
    Bool × LockCache :=
  if db.battles.rows.any fun m => m.status.locking &&
      (m.players.a = some profile || m.players.b = some profile) && now < lockUntil settings m m.games.rows then
    (true, cache)
  else (false, refreshLock settings db now)

/-- The question `is_held` and `locked_response` ask of a profile, and the cache it leaves. -/
def checkHeld (settings : Settings) (db : Db) (profile : ProfileId) (now : Time) (cache : LockCache) :
    Bool × LockCache :=
  match (cache.getD []).find? (·.1 = profile) with
  | none => (false, cache)
  | some (_, until_) =>
    if until_ ≠ 0 ∧ totalSeconds now < until_ then stillHeld settings db profile now cache else (false, cache)

/-- `is_held`. -/
def isHeld (settings : Settings) (db : Db) (profile : Option ProfileId) (now : Time) (cache : LockCache) :
    Bool × LockCache :=
  match profile with
  | none => (false, cache)
  | some profile => checkHeld settings db profile now cache

/-! ## The answer -/

/-- A request, as `locked_response` reads it. A header that is not there is empty. -/
structure PageRequest where
  profile : Option ProfileId
  path : String
  method : String := "GET"
  requestedWith : String := ""
  accept : String := ""
  deriving DecidableEq, Repr

/-- `HOME`. -/
def home : String := "/duelos/"

/-- `ALLOWED_PREFIXES`. -/
def allowedPrefixes : List String :=
  [home, "/arena/", "/accounts/logout/", "/custom-test/run/", "/announcements/active", "/widgets/template", "/i18n/",
    "/jsi18n", "/static/", "/media/", "/avatar/", "/teams/invitations/count/"]

/-- `ALLOWED_PATHS`. -/
def allowedPaths : List String :=
  ["/accounts/2fa/", "/accounts/2fa/webauthn/assert/", "/accounts/password/change/", "/accounts/password/change/done/"]

/-- The characters of the names `ROOT_FILE` matches. -/
def fileChar (c : Char) : Bool := c.isAlphanum || c = '_' || c = '.' || c = '-'

/-- `ROOT_FILE`. Its `$` also matches before a last line break. -/
def rootFile (path : String) : Bool :=
  let name := path.toList.drop 1
  path.toList.take 1 = ['/'] && ["png", "ico", "svg", "xml", "json", "webmanifest"].any fun kind =>
    [".".toList ++ kind.toList, ".".toList ++ kind.toList ++ ['\n']].any fun tail =>
      let stem := name.take (name.length - tail.length)
      tail.isSuffixOf name && !stem.isEmpty && stem.all fileChar

/-- The pages `locked_response` lets anybody reach. -/
def PageRequest.free (request : PageRequest) : Bool :=
  ["/duelos", "/arena"].contains request.path || allowedPaths.contains request.path ||
    allowedPrefixes.any (fun start => start.toList.isPrefixOf request.path.toList) || rootFile request.path

/-- `_wants_page`. -/
def PageRequest.wantsPage (request : PageRequest) : Bool :=
  if request.method ≠ "GET" ∧ request.method ≠ "HEAD" then false
  else if request.requestedWith = "XMLHttpRequest" then false
  else request.accept = "" || request.accept.toList.tails.any ("text/html".toList.isPrefixOf ·) ||
    strip request.accept = "*/*"

/-- What a held player gets for a page of the site: the way back, or an error of a script. -/
inductive HeldAnswer where
  | redirect (path : String)
  | error (message arena : String) (status : ℕ)
  deriving DecidableEq, Repr

/-- `locked_response`, and the cache it leaves. -/
def lockedResponse (settings : Settings) (db : Db) (request : PageRequest) (now : Time) (cache : LockCache) :
    Option HeldAnswer × LockCache :=
  match request.profile with
  | none => (none, cache)
  | some profile =>
    if request.free then (none, cache)
    else
      let (held, cache) := checkHeld settings db profile now cache
      if !held then (none, cache)
      else if request.wantsPage then (some (.redirect home), cache)
      else (some (.error "You are in a battle. Go back to the arena." home 403), cache)

end Arena
end CpcJudge
