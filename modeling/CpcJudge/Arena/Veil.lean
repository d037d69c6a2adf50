import CpcJudge.Arena.Podium

/-!
# `Arena.Veil` — the tables with the problems of the games hidden

Which problems a game has is a secret, for the players until it starts and for the public until it ends, and so is,
for the public, what is sent to it. What a page keeps of a secret is said by a function `hide`, that gives for each
game what the page may read: two states that differ only in what `hide` leaves out are the same behind the veil, and a
page that reads only what is left shows the same of both.
-/

namespace CpcJudge
open Ranking (sortBy sortBy_map)

namespace Arena

/-! ## States that differ in their problems -/

/-- The same match, its games as `R` says. -/
structure Match.Resembles (R : Game → Game → Prop) (m m' : Match) : Prop where
  same : m' = { m with games := m'.games }
  games : Table.Maps R m.games m'.games

/-- The same tables, the games of its matches as `R` says. -/
structure Db.Resembles (R : Game → Game → Prop) (db db' : Db) : Prop where
  same : db' = { db with battles := db'.battles }
  battles : Table.Maps (Match.Resembles R) db.battles db'.battles

/-! ## The veil -/

/-- What is left of a game: of its problems and of its backing contest. -/
structure Glimpse where
  problems : List GameProblem
  contest : Option Contest

/-- A game of which only what `hide` gives is left. -/
def Game.veil (hide : Game → Glimpse) (g : Game) : Game :=
  { g with problems := (hide g).problems, contest := (hide g).contest }

variable (hide : Game → Glimpse)

theorem Game.key_veil (g : Game) : Keyed.key (g.veil hide) = Keyed.key g := rfl

def Match.veil (m : Match) : Match := { m with games := m.games.map (Game.veil hide) (Game.key_veil hide) }

theorem Match.key_veil (m : Match) : Keyed.key (m.veil hide) = Keyed.key m := rfl

def Db.veil (db : Db) : Db := { db with battles := db.battles.map (Match.veil hide) (Match.key_veil hide) }

def MatchView.veil (v : MatchView) : MatchView := { v with «match» := v.match.veil hide }

section
variable {hide} {R : Game → Game → Prop} {m m' : Match} {db db' : Db} {id : MatchId}
  {tournament : TournamentId} {t : Tournament} {site : Site} {views : List MatchView}

theorem Match.Resembles.veil_eq (h : m.Resembles R m') (hR : ∀ g g', R g g' → g'.veil hide = g.veil hide) :
    m'.veil hide = m.veil hide := by
  have hgames : m'.games.map (Game.veil hide) (Game.key_veil hide) = m.games.map (Game.veil hide) (Game.key_veil hide) :=
    h.games.map_eq fun _ _ _ hg => hR _ _ hg
  rw [Match.veil, hgames, h.same]
  rfl

/-- Behind the veil the two states cannot be told apart. -/
theorem Db.Resembles.veil_eq (h : db.Resembles R db') (hR : ∀ g g', R g g' → g'.veil hide = g.veil hide) :
    db'.veil hide = db.veil hide := by
  have hbattles : db'.battles.map (Match.veil hide) (Match.key_veil hide) =
      db.battles.map (Match.veil hide) (Match.key_veil hide) := h.battles.map_eq fun _ _ _ hm => hm.veil_eq hR
  rw [Db.veil, hbattles, h.same]
  rfl

/-! ## What the veil leaves as it was -/

theorem tournamentOf_veil : tournamentOf (db.veil hide) (m.veil hide) = tournamentOf db m := rfl

theorem matchRules_veil : matchRules (db.veil hide) (m.veil hide) = matchRules db m := rfl

theorem match?_veil : (db.veil hide).match? id = (db.match? id).map (Match.veil hide) := by
  rw [Db.match?, Db.veil, Table.get?_map, Db.match?]

theorem rows_veil : (db.veil hide).battles.rows = db.battles.rows.map (Match.veil hide) := rfl

theorem games_veil : (m.veil hide).games.rows = m.games.rows.map (Game.veil hide) := rfl

theorem battlesOf_veil : battlesOf (db.veil hide) tournament = (battlesOf db tournament).map (Match.veil hide) := by
  rw [battlesOf, rows_veil, List.filter_map]
  rfl

theorem inPlay_veil : (m.veil hide).inPlay = m.inPlay := by
  rw [Match.inPlay, games_veil, List.any_map]
  rfl

/-! ## The podium and the standings -/

theorem matchViews_veil : matchViews site (db.veil hide) t =
    (matchViews site db t).map (MatchView.veil hide) := by
  have hview (m : Match) : matchView site t (m.veil hide) = (matchView site t m).veil hide := by
    have hgames : sortBy Game.number ((m.veil hide).games.rows.filter (·.status ≠ .prepared)) =
        (sortBy Game.number (m.games.rows.filter (·.status ≠ .prepared))).map (Game.veil hide) := by
      rw [games_veil, List.filter_map, sortBy_map Game.number _ fun _ => rfl]
      rfl
    show MatchView.mk _ _ _ _ _ ((sortBy Game.number _).map _) = .mk _ _ _ _ _ ((sortBy Game.number _).map _)
    rw [hgames, List.map_map]
    rfl
  rw [matchViews, battlesOf_veil, sortBy_map Match.shownOrder _ fun _ => rfl, List.map_map, matchViews, List.map_map]
  exact List.map_congr_left fun m _ => hview m

theorem podium_veil : podium (views.map (MatchView.veil hide)) = podium views := by
  have hfinal : (views.map (MatchView.veil hide)).reverse.find? (·.match.isFinal) =
      (views.reverse.find? (·.match.isFinal)).map (MatchView.veil hide) := by
    rw [← List.map_reverse, List.find?_map]
    rfl
  have hthird : (views.map (MatchView.veil hide)).find? (·.match.isThirdPlace) =
      (views.find? (·.match.isThirdPlace)).map (MatchView.veil hide) := by
    rw [List.find?_map]
    rfl
  have hsemis (id : MatchId) : ((views.map (MatchView.veil hide)).filter
      (·.isSemifinal id)).filterMap MatchView.loser = (views.filter (·.isSemifinal id)).filterMap MatchView.loser := by
    rw [List.filter_map, List.filterMap_map]
    rfl
  simp only [podium, hfinal, hthird, hsemis]
  cases views.reverse.find? (·.match.isFinal) with
  | none => rfl
  | some final =>
      cases views.find? (·.match.isThirdPlace) with
      | none => rfl
      | some third =>
          obtain ⟨_, _, _, _, winner, _⟩ := third
          cases winner
          · rfl
          · rfl

theorem standings_veil : standings site t (views.map (MatchView.veil hide)) = standings site t views := by
  have hstats : statsOf t (views.map (MatchView.veil hide)) = statsOf t views := by
    rw [statsOf, statsOf, List.foldl_map]
    rfl
  rw [standings, standings, hstats]

end

end Arena
end CpcJudge
