import CpcJudge.Arena.Db
import CpcJudge.Lib.Query

/-!
# Who organizes what in the duels

The lists of the panel come from queries over all the rows, the pages from checks on one row. Both leave out
what somebody still plays: the queries of the lists with the tournaments that are contended, the checks with
the match and the tournament at hand. `arena_lists_agree` says that a list holds exactly the rows the check
lets through.
-/

namespace CpcJudge.Access.Duels
open Query
open CpcJudge.Arena (MatchStatus TournamentStatus Slot Pair)

/-- `OWN` and `ALL`. -/
inductive Permission where
  | manageArena
  | manageAllArena
  deriving DecidableEq

structure User where
  isAuthenticated : Bool
  isActive : Bool
  profile : Option ℕ
  perms : List Permission
  deriving DecidableEq

def User.hasPerm (user : User) (perm : Permission) : Bool := perm ∈ user.perms

/-- `ArenaTournament`. -/
structure Tournament where
  id : ℕ
  status : TournamentStatus
  createdBy : Option ℕ
  organizers : List ℕ
  bank : Option ℕ
  deriving DecidableEq

/-- `ArenaParticipant`. -/
structure Participant where
  tournament : ℕ
  profile : ℕ
  deriving DecidableEq

/-- `ArenaMatch`. -/
structure Match where
  id : ℕ
  tournament : Option ℕ
  players : Pair (Option ℕ)
  status : MatchStatus
  createdBy : Option ℕ
  organizers : List ℕ
  deriving DecidableEq

/-- `ArenaScreen`. -/
structure Screen where
  id : ℕ
  tournament : Option ℕ
  battle : Option ℕ
  createdBy : Option ℕ
  deriving DecidableEq

/-- `ArenaProblemBank`. -/
structure Bank where
  id : ℕ
  createdBy : Option ℕ
  deriving DecidableEq

/-- The tables, each with its primary key. -/
structure Site where
  tournaments : List Tournament
  participants : List Participant
  battles : List Match
  screens : List Screen
  banks : List Bank
  tournaments_unique : (tournaments.map (·.id)).Nodup
  battles_unique : (battles.map (·.id)).Nodup
  screens_unique : (screens.map (·.id)).Nodup
  banks_unique : (banks.map (·.id)).Nodup

/-! ## What somebody organizes -/

/-- May open the battle panel at all. -/
def canManage (user : User) : Bool :=
  user.isAuthenticated && user.isActive && (user.hasPerm .manageArena || user.hasPerm .manageAllArena)

def managesAll (user : User) : Bool := canManage user && user.hasPerm .manageAllArena

/-- `_tournament_q`. Asking for `None` asks for a row without a creator, or without organizers. -/
def tournamentQ {α : Type} (createdBy : α → Option ℕ) (organizers : α → List ℕ) :
    Option ℕ → Q α fun _ : Unit => ℕ
  | some profile => (Q.col fun row => createdBy row = some profile).or (.rel () (· = profile))
  | none => (Q.col fun row => createdBy row = none).or (.col fun row => organizers row = [])

def tournamentsFor (site : Site) (user : User) : List Tournament :=
  if managesAll user then site.tournaments
  else if !canManage user then []
  else
    let ids := (Query.filter (fun tournament _ => tournament.organizers)
      (tournamentQ Tournament.createdBy Tournament.organizers user.profile) site.tournaments).map (·.id)
    site.tournaments.filter fun tournament => tournament.id ∈ ids

def matchesFor (site : Site) (user : User) : List Match :=
  if managesAll user then site.battles
  else if !canManage user then []
  else
    let quick := (Query.filter (fun battle _ => battle.organizers)
      ((Q.col fun battle => battle.tournament.isNone).and
        (tournamentQ Match.createdBy Match.organizers user.profile)) site.battles).map (·.id)
    let tournaments := (tournamentsFor site user).map (·.id)
    site.battles.filter fun battle => decide (battle.id ∈ quick) || battle.tournament.any (· ∈ tournaments)

/-! ## What somebody still plays -/

/-- The profile of somebody who is logged in. -/
def playerId (user : User) : Option ℕ := if user.isAuthenticated then user.profile else none

/-- The battle has a result, or never will. -/
def Match.over (battle : Match) : Bool := battle.status = .decided || battle.status = .cancelled

def Match.slotOf (battle : Match) (profile : ℕ) : Option Slot :=
  if battle.players.a = some profile then some .a
  else if battle.players.b = some profile then some .b
  else none

def contendedBy (site : Site) (profile : ℕ) : List Tournament :=
  let entered := (site.participants.filter (·.profile = profile)).map (·.tournament)
  let playing := (site.battles.filter fun battle =>
    (battle.players.a = some profile || battle.players.b = some profile) && battle.tournament.isSome &&
      !battle.over).filterMap (·.tournament)
  site.tournaments.filter fun tournament =>
    tournament.status = .draft && decide (tournament.id ∈ entered) ||
      (tournament.status = .draft || tournament.status = .running) && decide (tournament.id ∈ playing)

def contendedTournaments (site : Site) (user : User) : List Tournament :=
  (playerId user).elim [] (contendedBy site)

/-- The keys that the queries over the contended tournaments start from. -/
def contendedIds (site : Site) (user : User) : List ℕ := (contendedTournaments site user).map (·.id)

def contends (site : Site) (user : User) (tournament : ℕ) : Bool :=
  (contendedTournaments site user).any (·.id = tournament)

def contendedScreens (site : Site) (user : User) : List Screen :=
  let tournaments := contendedIds site user
  let battles := (site.battles.filter (·.tournament.any (· ∈ tournaments))).map (·.id)
  site.screens.filter fun screen => screen.tournament.any (· ∈ tournaments) || screen.battle.any (· ∈ battles)

def contendedBanks (site : Site) (user : User) : List Bank :=
  site.banks.filter fun bank => bank.id ∈ (contendedTournaments site user).filterMap (·.bank)

def contendsBank (site : Site) (user : User) (bank : ℕ) : Bool := (contendedBanks site user).any (·.id = bank)

def closedMatchIds (site : Site) (user : User) : List ℕ :=
  (playerId user).elim [] fun profile =>
    (site.battles.filter fun battle =>
      (battle.players.a = some profile || battle.players.b = some profile) && !battle.over ||
        battle.tournament.any (· ∈ contendedIds site user)).map (·.id)

/-! ## The lists without what somebody still plays -/

def screensFor (site : Site) (user : User) : List Screen :=
  if !canManage user then []
  else
    let screens := if managesAll user then site.screens else site.screens.filter (·.createdBy = user.profile)
    screens.filter fun screen => screen.id ∉ (contendedScreens site user).map (·.id)

def banksFor (site : Site) (user : User) : List Bank :=
  if !canManage user then []
  else
    let banks := if managesAll user then site.banks else site.banks.filter (·.createdBy = user.profile)
    banks.filter fun bank => bank.id ∉ (contendedBanks site user).map (·.id)

/-! ## One row -/

def canManageTournament (site : Site) (user : User) (tournament : Tournament) : Bool :=
  if contends site user tournament.id then false
  else managesAll user || canManage user && (tournamentsFor site user).any (·.id = tournament.id)

def plays (user : User) (battle : Match) : Bool :=
  (playerId user).any fun profile => (battle.slotOf profile).isSome && !battle.over

def canManageMatch (site : Site) (user : User) (battle : Match) : Bool :=
  if plays user battle || battle.tournament.any (contends site user) then false
  else managesAll user || canManage user && (matchesFor site user).any (·.id = battle.id)

def canManageScreen (site : Site) (user : User) (screen : Screen) : Bool :=
  if (contendedScreens site user).any (·.id = screen.id) then false
  else managesAll user || canManage user && (screensFor site user).any (·.id = screen.id)

def canManageBank (site : Site) (user : User) (bank : Bank) : Bool :=
  if contendsBank site user bank.id then false
  else managesAll user || canManage user && (banksFor site user).any (·.id = bank.id)

/-! ## They agree -/

section Agree

variable {site : Site} {user : User}

section Key
variable {α : Type} {key : α → ℕ} {table rows : List α} {row : α}

/-- With a primary key, a row is found by its key in the lists it is in. -/
theorem key_mem_iff (hunique : (table.map key).Nodup) (hrows : ∀ x ∈ rows, x ∈ table) (hrow : row ∈ table) :
    key row ∈ rows.map key ↔ row ∈ rows := by
  refine ⟨fun h => ?_, List.mem_map_of_mem⟩
  obtain ⟨found, hfound, hkey⟩ := List.mem_map.mp h
  rwa [← List.inj_on_of_nodup_map hunique (hrows found hfound) hrow hkey]

theorem any_key_iff (hunique : (table.map key).Nodup) (hrows : ∀ x ∈ rows, x ∈ table) (hrow : row ∈ table) :
    (rows.any fun x => decide (key x = key row)) = true ↔ row ∈ rows := by
  rw [← key_mem_iff hunique hrows hrow, List.any_eq_true, List.mem_map]
  simp

end Key

theorem canManage_of_managesAll (h : managesAll user = true) : canManage user = true :=
  (Bool.and_eq_true_iff.mp h).1

theorem tournamentsFor_sub : ∀ tournament ∈ tournamentsFor site user, tournament ∈ site.tournaments := by
  intro tournament h
  unfold tournamentsFor at h
  split_ifs at h
  · exact h
  · cases h
  · exact List.mem_of_mem_filter h

theorem canManage_of_tournamentsFor {tournament : Tournament} (h : tournament ∈ tournamentsFor site user) :
    canManage user = true := by
  unfold tournamentsFor at h
  split_ifs at h with hall hnone
  · exact canManage_of_managesAll hall
  · cases h
  · simpa using hnone

theorem matchesFor_sub : ∀ battle ∈ matchesFor site user, battle ∈ site.battles := by
  intro battle h
  unfold matchesFor at h
  split_ifs at h
  · exact h
  · cases h
  · exact List.mem_of_mem_filter h

theorem canManage_of_matchesFor {battle : Match} (h : battle ∈ matchesFor site user) : canManage user = true := by
  unfold matchesFor at h
  split_ifs at h with hall hnone
  · exact canManage_of_managesAll hall
  · cases h
  · simpa using hnone

theorem contendedTournaments_sub :
    ∀ tournament ∈ contendedTournaments site user, tournament ∈ site.tournaments := by
  intro tournament h
  unfold contendedTournaments at h
  cases hplayer : playerId user with
  | none =>
      rw [hplayer] at h
      cases h
  | some profile =>
      rw [hplayer] at h
      exact List.mem_of_mem_filter h

theorem contendedScreens_sub : ∀ screen ∈ contendedScreens site user, screen ∈ site.screens := fun _ h =>
  List.mem_of_mem_filter h

theorem contendedBanks_sub : ∀ bank ∈ contendedBanks site user, bank ∈ site.banks := fun _ h =>
  List.mem_of_mem_filter h

theorem contends_iff {tournament : ℕ} :
    contends site user tournament = true ↔ tournament ∈ contendedIds site user := by
  simp [contends, contendedIds]

/-- A check agrees with a list when whoever organizes all battles finds the row in it, unless it is closed to them,
and nobody finds it who may not organize. -/
theorem check_iff {closed listed : Prop} {closedTo listedFor : Bool} (hclosed : closedTo = true ↔ closed)
    (hlisted : listedFor = true ↔ listed) (hall : managesAll user = true → ¬ closed → listed)
    (hnone : listed → canManage user = true) :
    (if closedTo then false else managesAll user || canManage user && listedFor) = true ↔ listed ∧ ¬ closed := by
  by_cases h : closed
  · rw [if_pos (hclosed.mpr h)]
    simp [h]
  · rw [if_neg (mt hclosed.mp h), Bool.or_eq_true, Bool.and_eq_true, hlisted]
    constructor
    · rintro (hmanages | ⟨_, hlist⟩)
      · exact ⟨hall hmanages h, h⟩
      · exact ⟨hlist, h⟩
    · rintro ⟨hlist, _⟩
      exact .inr ⟨hnone hlist, hlist⟩

theorem canManageTournament_iff {tournament : Tournament} (h : tournament ∈ site.tournaments) :
    canManageTournament site user tournament = true ↔
      tournament ∈ tournamentsFor site user ∧ tournament ∉ contendedTournaments site user := by
  refine check_iff (any_key_iff site.tournaments_unique contendedTournaments_sub h)
    (any_key_iff site.tournaments_unique tournamentsFor_sub h) (fun hall _ => ?_) canManage_of_tournamentsFor
  rwa [tournamentsFor, if_pos hall]

theorem slotOf_isSome {battle : Match} {profile : ℕ} :
    (battle.slotOf profile).isSome = (decide (battle.players.a = some profile) ||
      decide (battle.players.b = some profile)) := by
  unfold Match.slotOf
  split_ifs with ha hb
  · simp [ha]
  · simp [hb]
  · simp [ha, hb]

/-- A battle is closed to who plays it or its tournament. -/
theorem mem_closedMatchIds {battle : Match} (h : battle ∈ site.battles) :
    (plays user battle || battle.tournament.any (contends site user)) = true ↔
      battle.id ∈ closedMatchIds site user := by
  have hcontends : battle.tournament.any (contends site user) =
      battle.tournament.any fun tournament => decide (tournament ∈ contendedIds site user) := by
    refine congrArg battle.tournament.any (funext fun tournament => ?_)
    rw [Bool.eq_iff_iff, contends_iff, decide_eq_true_iff]
  rw [hcontends, plays, closedMatchIds]
  cases hplayer : playerId user with
  | none =>
      have hnothing : contendedIds site user = [] := by
        rw [contendedIds, contendedTournaments, hplayer]
        rfl
      cases htournament : battle.tournament <;> simp [hnothing]
  | some profile =>
      rw [Option.any_some, Option.elim_some,
        key_mem_iff site.battles_unique (fun _ hin => List.mem_of_mem_filter hin) h, List.mem_filter, slotOf_isSome]
      exact (and_iff_right h).symm

theorem canManageMatch_iff {battle : Match} (h : battle ∈ site.battles) :
    canManageMatch site user battle = true ↔
      battle ∈ matchesFor site user ∧ battle.id ∉ closedMatchIds site user := by
  refine check_iff (mem_closedMatchIds h) (any_key_iff site.battles_unique matchesFor_sub h) (fun hall _ => ?_)
    canManage_of_matchesFor
  rwa [matchesFor, if_pos hall]

/-- Screens and banks: one's own, or all of them, without those that are closed. -/
theorem mem_own_iff {α : Type} {key : α → ℕ} {createdBy : α → Option ℕ} {table closed : List α} {row : α}
    (hunique : (table.map key).Nodup) (hclosed : ∀ x ∈ closed, x ∈ table) (hrow : row ∈ table) :
    (row ∈ if !canManage user then [] else
      (if managesAll user then table else table.filter fun x => createdBy x = user.profile).filter
        fun x => key x ∉ closed.map key) ↔
      canManage user = true ∧ (managesAll user = true ∨ createdBy row = user.profile) ∧ row ∉ closed := by
  split_ifs with hnone hall
  · rw [Bool.not_eq_true'] at hnone
    simp [hnone]
  · rw [List.mem_filter, decide_eq_true_iff, key_mem_iff hunique hclosed hrow]
    simp [hrow, hall, canManage_of_managesAll hall]
  · rw [Bool.not_eq_true', Bool.not_eq_false] at hnone
    rw [List.mem_filter, List.mem_filter, decide_eq_true_iff, decide_eq_true_iff, key_mem_iff hunique hclosed hrow]
    simp [hrow, hall, hnone]

theorem mem_screensFor {screen : Screen} (h : screen ∈ site.screens) :
    screen ∈ screensFor site user ↔ canManage user = true ∧
      (managesAll user = true ∨ screen.createdBy = user.profile) ∧ screen ∉ contendedScreens site user :=
  mem_own_iff site.screens_unique contendedScreens_sub h

theorem mem_banksFor {bank : Bank} (h : bank ∈ site.banks) :
    bank ∈ banksFor site user ↔ canManage user = true ∧
      (managesAll user = true ∨ bank.createdBy = user.profile) ∧ bank ∉ contendedBanks site user :=
  mem_own_iff site.banks_unique contendedBanks_sub h

theorem screensFor_sub : ∀ screen ∈ screensFor site user, screen ∈ site.screens := by
  intro screen h
  unfold screensFor at h
  split_ifs at h
  · cases h
  · exact List.mem_of_mem_filter h
  · exact List.mem_of_mem_filter (List.mem_of_mem_filter h)

theorem banksFor_sub : ∀ bank ∈ banksFor site user, bank ∈ site.banks := by
  intro bank h
  unfold banksFor at h
  split_ifs at h
  · cases h
  · exact List.mem_of_mem_filter h
  · exact List.mem_of_mem_filter (List.mem_of_mem_filter h)

theorem canManageScreen_iff {screen : Screen} (h : screen ∈ site.screens) :
    canManageScreen site user screen = true ↔ screen ∈ screensFor site user := by
  have hcheck : canManageScreen site user screen = true ↔
      screen ∈ screensFor site user ∧ screen ∉ contendedScreens site user := by
    refine check_iff (any_key_iff site.screens_unique contendedScreens_sub h)
      (any_key_iff site.screens_unique screensFor_sub h) (fun hall hopen => ?_) fun hlist => ((mem_screensFor h).mp hlist).1
    exact (mem_screensFor h).mpr ⟨canManage_of_managesAll hall, .inl hall, hopen⟩
  exact hcheck.trans (and_iff_left_of_imp fun hlist => ((mem_screensFor h).mp hlist).2.2)

theorem canManageBank_iff {bank : Bank} (h : bank ∈ site.banks) :
    canManageBank site user bank = true ↔ bank ∈ banksFor site user := by
  have hcheck : canManageBank site user bank = true ↔
      bank ∈ banksFor site user ∧ bank ∉ contendedBanks site user := by
    refine check_iff (any_key_iff site.banks_unique contendedBanks_sub h)
      (any_key_iff site.banks_unique banksFor_sub h) (fun hall hopen => ?_) fun hlist => ((mem_banksFor h).mp hlist).1
    exact (mem_banksFor h).mpr ⟨canManage_of_managesAll hall, .inl hall, hopen⟩
  exact hcheck.trans (and_iff_left_of_imp fun hlist => ((mem_banksFor h).mp hlist).2.2)

/-! ## Nobody runs what they play -/

/-- The battle has the profile for a player, and is not over. -/
def Match.PlayedBy (battle : Match) (profile : ℕ) : Prop :=
  (battle.players.a = some profile ∨ battle.players.b = some profile) ∧
    battle.status ≠ .decided ∧ battle.status ≠ .cancelled

/-- The profile may still play in the tournament: it entered a draft, or has a battle in a draft or a running one. -/
def Site.Plays (site : Site) (profile : ℕ) (tournament : Tournament) : Prop :=
  (tournament.status = .draft ∧ ∃ participant ∈ site.participants,
      participant.tournament = tournament.id ∧ participant.profile = profile) ∨
    ((tournament.status = .draft ∨ tournament.status = .running) ∧
      ∃ battle ∈ site.battles, battle.tournament = some tournament.id ∧ battle.PlayedBy profile)

theorem mem_contendedBy {profile : ℕ} {tournament : Tournament} :
    tournament ∈ contendedBy site profile ↔ tournament ∈ site.tournaments ∧ site.Plays profile tournament := by
  rw [contendedBy, List.mem_filter]
  refine and_congr_right fun _ => ?_
  have hentered : tournament.id ∈ (site.participants.filter (·.profile = profile)).map (·.tournament) ↔
      ∃ participant ∈ site.participants, participant.tournament = tournament.id ∧ participant.profile = profile := by
    simp [and_assoc, and_comm]
  have hplaying : tournament.id ∈ (site.battles.filter fun battle =>
      (battle.players.a = some profile || battle.players.b = some profile) && battle.tournament.isSome &&
        !battle.over).filterMap (·.tournament) ↔
      ∃ battle ∈ site.battles, battle.tournament = some tournament.id ∧ battle.PlayedBy profile := by
    rw [List.mem_filterMap]
    refine exists_congr fun battle => ?_
    rw [List.mem_filter, and_assoc]
    refine and_congr_right fun _ => ⟨?_, ?_⟩
    · rintro ⟨hopen, htournament⟩
      simp [Match.over, htournament] at hopen
      exact ⟨htournament, hopen⟩
    · rintro ⟨htournament, hplayed⟩
      refine ⟨?_, htournament⟩
      simpa [Match.over, Match.PlayedBy, htournament] using hplayed
  rw [Bool.or_eq_true, Bool.and_eq_true, Bool.and_eq_true, Bool.or_eq_true]
  simp only [decide_eq_true_iff, hentered, hplaying]
  rfl

/-- Nobody who is not logged in organizes anything. -/
theorem playerId_of_canManage (h : canManage user = true) : playerId user = user.profile := by
  rw [playerId, if_pos]
  simp only [canManage, Bool.and_eq_true] at h
  exact h.1.1

theorem mem_contendedTournaments {profile : ℕ} {tournament : Tournament} (huser : user.profile = some profile)
    (hmanage : canManage user = true) (h : tournament ∈ site.tournaments) (hplays : site.Plays profile tournament) :
    tournament ∈ contendedTournaments site user := by
  rw [contendedTournaments, playerId_of_canManage hmanage, huser]
  exact mem_contendedBy.mpr ⟨h, hplays⟩

theorem canManage_of_match {battle : Match} (h : canManageMatch site user battle = true) :
    canManage user = true := by
  unfold canManageMatch at h
  split_ifs at h
  rcases Bool.or_eq_true_iff.mp h with hall | hown
  · exact canManage_of_managesAll hall
  · exact (Bool.and_eq_true_iff.mp hown).1

/-- What nobody organizes while they play it: their battles, and the battles, screens and bank of their tournaments. -/
structure Site.Closed (site : Site) (user : User) (profile : ℕ) : Prop where
  own : ∀ battle ∈ site.battles, battle.PlayedBy profile → canManageMatch site user battle = false
  battles : ∀ tournament ∈ site.tournaments, site.Plays profile tournament → ∀ battle ∈ site.battles,
    battle.tournament = some tournament.id → canManageMatch site user battle = false
  screens : ∀ tournament ∈ site.tournaments, site.Plays profile tournament → ∀ screen ∈ site.screens,
    (screen.tournament = some tournament.id ∨
      ∃ battle ∈ site.battles, battle.tournament = some tournament.id ∧ screen.battle = some battle.id) →
    canManageScreen site user screen = false
  banks : ∀ tournament ∈ site.tournaments, site.Plays profile tournament → ∀ bank ∈ site.banks,
    tournament.bank = some bank.id → canManageBank site user bank = false

theorem closed_to_players {profile : ℕ} (huser : user.profile = some profile) : site.Closed user profile := by
  have hcontended : canManage user = true → ∀ tournament ∈ site.tournaments, site.Plays profile tournament →
      tournament.id ∈ contendedIds site user := fun hmanage tournament h hplays =>
    List.mem_map_of_mem (mem_contendedTournaments huser hmanage h hplays)
  constructor
  · intro battle hbattle hplayed
    by_contra hmanages
    rw [Bool.not_eq_false] at hmanages
    have hplayer := playerId_of_canManage (canManage_of_match hmanages)
    refine ((canManageMatch_iff hbattle).mp hmanages).2 ((mem_closedMatchIds hbattle).mp ?_)
    rw [Bool.or_eq_true, plays, hplayer, huser, Option.any_some, slotOf_isSome]
    left
    simpa [Match.over, Match.PlayedBy] using hplayed
  · intro tournament htournament hplays battle hbattle hof
    by_contra hmanages
    rw [Bool.not_eq_false] at hmanages
    refine ((canManageMatch_iff hbattle).mp hmanages).2 ((mem_closedMatchIds hbattle).mp ?_)
    rw [Bool.or_eq_true, hof, Option.any_some, contends_iff]
    exact .inr (hcontended (canManage_of_match hmanages) tournament htournament hplays)
  · intro tournament htournament hplays screen hscreen hof
    by_contra hmanages
    rw [Bool.not_eq_false, canManageScreen_iff hscreen, mem_screensFor hscreen] at hmanages
    obtain ⟨hmanage, _, hopen⟩ := hmanages
    have hid := hcontended hmanage tournament htournament hplays
    refine hopen (List.mem_filter.mpr ⟨hscreen, ?_⟩)
    rcases hof with hof | ⟨battle, hbattle, hbattleOf, hof⟩
    · simp [hof, hid]
    · have hin : battle.id ∈ (site.battles.filter (·.tournament.any (· ∈ contendedIds site user))).map (·.id) :=
        List.mem_map_of_mem (List.mem_filter.mpr ⟨hbattle, by simp [hbattleOf, hid]⟩)
      rw [Bool.or_eq_true, hof, Option.any_some]
      exact .inr (decide_eq_true hin)
  · intro tournament htournament hplays bank hbank hof
    by_contra hmanages
    rw [Bool.not_eq_false, canManageBank_iff hbank, mem_banksFor hbank] at hmanages
    obtain ⟨hmanage, _, hopen⟩ := hmanages
    refine hopen (List.mem_filter.mpr ⟨hbank, decide_eq_true (List.mem_filterMap.mpr ⟨tournament, ?_, hof⟩)⟩)
    exact mem_contendedTournaments huser hmanage htournament hplays

end Agree

/-- Every list holds exactly the rows that the check lets through, and neither lets anybody run what they still
play. -/
theorem arena_lists_agree (site : Site) (user : User) :
    (∀ tournament ∈ site.tournaments, tournament ∈ tournamentsFor site user ∧
        tournament ∉ contendedTournaments site user ↔ canManageTournament site user tournament = true) ∧
      (∀ battle ∈ site.battles, battle ∈ matchesFor site user ∧ battle.id ∉ closedMatchIds site user ↔
        canManageMatch site user battle = true) ∧
      (∀ screen ∈ site.screens, screen ∈ screensFor site user ↔ canManageScreen site user screen = true) ∧
      (∀ bank ∈ site.banks, bank ∈ banksFor site user ↔ canManageBank site user bank = true) ∧
      ∀ profile, user.profile = some profile → site.Closed user profile :=
  ⟨fun _ h => (canManageTournament_iff h).symm, fun _ h => (canManageMatch_iff h).symm,
    fun _ h => (canManageScreen_iff h).symm, fun _ h => (canManageBank_iff h).symm, fun _ huser =>
      closed_to_players huser⟩

end CpcJudge.Access.Duels
