import CpcJudge.Arena.Repeats

/-!
# `Arena.Busy` — who plays two matches at once

`call_match`, `start_game` and `replace_player` look whether a player is busy elsewhere; `_place` does not. Whoever a
result sends on to a match that is already called may be in another one: `nobody_twice` is the invariant of the runs
in which no result does, and `plays_twice` a run in which one does.
-/

namespace CpcJudge
namespace Arena

/-- Nobody is a player of two matches called or being played. -/
def NobodyTwice (db : Db) : Prop :=
  ∀ m ∈ db.battles.rows, ∀ n ∈ db.battles.rows, m.status.locking = true → n.status.locking = true →
    ∀ slot slot' p, m.players.get slot = some p → n.players.get slot' = some p → m.id = n.id

/-- Given to `w`, the match sends a player to a slot of another one. -/
def Match.Sends (m : Match) (w : Slot) (q : MatchId × Slot) (p : ProfileId) : Prop :=
  (m.nextMatch = some q ∧ m.players.get w = some p) ∨ (m.loserNextMatch = some q ∧ m.players.get w.other = some p)

/-- Whoever the match sends on to one already called is in no other match called or being played, but for a seat that
    the other player takes, and is not sent on to another one. -/
def Match.SendsClear (db : Db) (m : Match) (w : Slot) : Prop :=
  ∀ q p, m.Sends w q p → ∀ n, db.match? q.1 = some n → n.status.locking = true →
    ∀ x ∈ db.battles.rows, x.status.locking = true → x.id ≠ m.id → x.id ≠ n.id → ∀ slot,
      ¬ m.Sends w (x.id, slot) p ∧ (x.players.get slot = some p → ∃ p', m.Sends w (x.id, slot) p')

/-! ## Players on their way -/

/-- Players that arrive take their seats, and everybody else keeps theirs. -/
structure Match.Takes (sends : MatchId × Slot → ProfileId → Prop) (m m' : Match) : Prop where
  id : m'.id = m.id
  locking : m'.status.locking = m.status.locking
  seat : ∀ slot p, m'.players.get slot = some p →
    sends (m.id, slot) p ∨ (m.players.get slot = some p ∧ ∀ p', ¬ sends (m.id, slot) p')

section
variable {fair : Prop} {db db' : Db} {m m' n : Match} {sends sends' : MatchId × Slot → ProfileId → Prop}

theorem Match.Takes.trans {a b c : Match} (h : a.Takes sends b) (h' : b.Takes sends' c) :
    a.Takes (fun q p => sends q p ∨ sends' q p) c := by
  refine ⟨h'.id.trans h.id, h'.locking.trans h.locking, fun slot p hp => ?_⟩
  rcases h'.seat slot p hp with hsent | ⟨hb, hnot⟩
  · exact .inl (.inr (h.id ▸ hsent))
  · rcases h.seat slot p hb with hsent | ⟨ha, hnot'⟩
    · exact .inl (.inl hsent)
    · exact .inr ⟨ha, fun p' hsent => hsent.elim (hnot' p') fun hsent => hnot p' (h.id ▸ hsent)⟩

theorem Match.Takes.nobody (h : ∀ q p, ¬ sends q p) (m : Match) : m.Takes sends m :=
  ⟨rfl, rfl, fun _ _ hp => .inr ⟨hp, fun p' => h _ p'⟩⟩

theorem Placed.takes {seed : Option ℕ} {target : Option (MatchId × Slot)} {p : Option ProfileId}
    (h : Placed seed db target p db') :
    Table.Maps (Match.Takes fun q p' => target = some q ∧ p = some p') db.battles db'.battles := by
  cases h with
  | nobody => exact .refl (Match.Takes.nobody fun _ _ h => by cases h.2) _
  | nowhere => exact .refl (Match.Takes.nobody fun _ _ h => by cases h.1) _
  | @placed i n slot p here _ =>
      have hid : n.id = i := Table.key_of_get? here
      obtain ⟨status, heq, hstatus⟩ := n.receive_eq slot (some p) seed
      have htakes : n.Takes (fun q p' => some (i, slot) = some q ∧ some p = some p') (n.receive slot (some p) seed) := by
        rw [heq]
        refine ⟨rfl, ?_, fun slot' p' hp' => ?_⟩
        · rcases hstatus with rfl | ⟨hwas, rfl⟩ | ⟨hwas, rfl⟩
          · rfl
          · rw [hwas]
            rfl
          · rw [hwas]
            rfl
        · by_cases hslot : slot' = slot
          · subst hslot
            rw [Pair.get_set_self] at hp'
            exact .inl ⟨by rw [hid], hp'⟩
          · rw [Pair.get_set_of_ne _ _ hslot] at hp'
            exact .inr ⟨hp', fun _ hsent => hslot (by cases hsent.1; rfl)⟩
      refine Table.Maps.put_row (b := n) (fun x hx => ?_) ?_ htakes
      · refine ⟨rfl, rfl, fun _ _ hp => .inr ⟨hp, fun _ hsent => hx ?_⟩⟩
        rw [show Keyed.key (n.receive slot (some p) seed) = n.id from htakes.id, hid]
        cases hsent.1
        rfl
      · rw [show Keyed.key (n.receive slot (some p) seed) = n.id from htakes.id, hid]
        exact here

/-- The players of a decided match take their seats. -/
theorem Advanced.takes {w : Slot} (h : Advanced m db db') (hw : m.winnerSlot = some w) :
    db'.battles = db.battles ∨ Table.Maps (Match.Takes (m.Sends w)) db.battles db'.battles := by
  cases h with
  | quick => exact .inl rfl
  | onward _ won _ next loser checked =>
      obtain rfl := Option.some.inj (won.symm.trans hw)
      rw [checked.battles]
      exact .inr (next.takes.comp (fun _ _ _ hab hbc => hab.trans hbc) loser.takes)

/-! ## Turn after turn -/

theorem busyElsewhere_eq_false {p : ProfileId} {i : MatchId} (h : busyElsewhere db p (some i) = false)
    (hn : n ∈ db.battles.rows) (hlocking : n.status.locking = true) {slot : Slot} (hp : n.players.get slot = some p) :
    n.id = i := by
  by_contra hne
  refine Bool.eq_false_iff.mp h (List.any_eq_true.mpr ⟨n, hn, ?_⟩)
  have hin : n.players.a = some p ∨ n.players.b = some p := by
    cases slot
    · exact .inl hp
    · exact .inr hp
  simp [hlocking, hin, hne]

/-- A row saved that sits nobody anew but players who are free. -/
theorem NobodyTwice.put (hI : NobodyTwice db) {m : Match} {table : Table Match}
    (hfree : m.status.locking = true → ∀ slot p, m.players.get slot = some p → ∀ n ∈ db.battles.rows,
      n.status.locking = true → ∀ slot', n.players.get slot' = some p → n.id = m.id)
    (hbattles : ∀ x ∈ table.rows, x = m ∨ x ∈ db.battles.rows) (hdb' : db'.battles = table) : NobodyTwice db' := by
  subst hdb'
  intro x hx y hy hlocking hlocking' slot slot' p hp hp'
  rcases hbattles x hx with rfl | hx <;> rcases hbattles y hy with rfl | hy
  · rfl
  · exact (hfree hlocking slot p hp y hy hlocking' slot' hp').symm
  · exact hfree hlocking' slot' p hp' x hx hlocking slot hp
  · exact hI x hx y hy hlocking hlocking' slot slot' p hp hp'

/-- A row saved with its players, called only if it was. -/
theorem NobodyTwice.put_same (hI : NobodyTwice db) {m m' : Match} (here : db.match? m.id = some m)
    (hbattles : db'.battles = db.battles.put m') (hid : m'.id = m.id) (hplayers : m'.players = m.players)
    (hlocking : m'.status.locking = true → m.status.locking = true) : NobodyTwice db' := by
  refine hI.put (m := m') (fun hcalled slot p hp n hn hcalled' slot' hp' => ?_)
    (fun x hx => (Table.mem_put hx).imp_right And.left) hbattles
  rw [hid]
  exact hI n hn m (Table.mem_of_get? here) hcalled' (hlocking hcalled) slot' slot p hp' (hplayers ▸ hp)

theorem NobodyTwice.advanced (hI : NobodyTwice db) {w : Slot} (h : Advanced m db db') (hw : m.winnerSlot = some w)
    (hdecided : ∀ x ∈ db.battles.rows, x.status.locking = true → x.id ≠ m.id) (hclear : m.SendsClear db w) :
    NobodyTwice db' := by
  rcases h.takes hw with hsame | hmaps
  · exact fun x hx y hy => hI x (hsame ▸ hx) y (hsame ▸ hy)
  · intro x' hx' y' hy' hlocking hlocking' slot slot' p hp hp'
    obtain ⟨x, hx, -, hxtakes⟩ := hmaps.back hx'
    obtain ⟨y, hy, -, hytakes⟩ := hmaps.back hy'
    rw [hxtakes.locking] at hlocking
    rw [hytakes.locking] at hlocking'
    rw [hxtakes.id, hytakes.id]
    -- who arrives at one called match is in no other one
    have harrives : ∀ {a b : Match} {sa sb : Slot}, a ∈ db.battles.rows → b ∈ db.battles.rows →
        a.status.locking = true → b.status.locking = true → m.Sends w (a.id, sa) p →
        (m.Sends w (b.id, sb) p ∨ (b.players.get sb = some p ∧ ∀ p', ¬ m.Sends w (b.id, sb) p')) →
        a.id = b.id := by
      intro a b sa sb ha hb hla hlb hsent hseat
      by_contra hne
      obtain ⟨hnot, htaken⟩ := hclear (a.id, sa) p hsent a (Table.get?_of_mem ha) hla b hb hlb (hdecided b hb hlb)
        (Ne.symm hne) sb
      rcases hseat with hsent' | ⟨hsits, hkept⟩
      · exact hnot hsent'
      · obtain ⟨p', hsent'⟩ := htaken hsits
        exact hkept p' hsent'
    rcases hxtakes.seat slot p hp with hsent | ⟨hsits, hkept⟩
    · exact harrives hx hy hlocking hlocking' hsent (hytakes.seat slot' p hp')
    · rcases hytakes.seat slot' p hp' with hsent | ⟨hsits', _⟩
      · exact (harrives hy hx hlocking' hlocking hsent (.inr ⟨hsits, hkept⟩)).symm
      · exact hI x hx y hy hlocking hlocking' slot slot' p hsits hsits'

theorem NobodyTwice.turn (hI : NobodyTwice db) (h : Turn fair (fun db m w => m.SendsClear db w) db db') :
    NobodyTwice db' := by
  cases h with
  | rest rests _ =>
      intro x' hx' y' hy' hlocking hlocking' slot slot' p hp hp'
      obtain ⟨x, hx, hxid, hxrests⟩ := rests.back hx'
      obtain ⟨y, hy, hyid, hyrests⟩ := rests.back hy'
      rw [hxrests.players] at hp
      rw [hyrests.players] at hp'
      rw [show x'.id = x.id from hxid, show y'.id = y.id from hyid]
      exact hI x hx y hy (hxrests.locking hlocking) (hyrests.locking hlocking') slot slot' p hp hp'
  | @lock m m' _ here remains free battles _ =>
      refine hI.put (m := m') (fun _ slot p hp n hn hlocking slot' hp' => ?_)
        (fun x hx => (Table.mem_put hx).imp_right And.left) battles
      rw [Match.id_of_static remains.static]
      exact busyElsewhere_eq_false (free slot p (remains.players ▸ hp)) hn hlocking hp'
  | problems v here game _ battles _ => exact hI.put_same here battles rfl rfl fun h => h
  | addGame here _ _ _ battles _ => exact hI.put_same here battles rfl rfl fun h => h
  | @replace m slot p display _ here free battles _ =>
      obtain ⟨status, heq, hstatus⟩ := m.replace_eq slot p display
      have hlocking : status.locking = true → m.status.locking = true := by
        rcases hstatus with rfl | ⟨_, rfl⟩
        · exact fun h => h
        · exact fun h => by cases h
      rw [heq] at battles
      refine hI.put (fun hcalled slot' p' hp' n hn hcalled' slot'' hp'' => ?_)
        (fun x hx => (Table.mem_put hx).imp_right And.left) battles
      by_cases hslot : slot' = slot
      · subst hslot
        obtain rfl : p = p' := by simpa using hp'
        exact busyElsewhere_eq_false free hn hcalled' hp''
      · have hp' : m.players.get slot' = some p' := (Pair.get_set_of_ne _ _ hslot).symm.trans hp'
        exact hI n hn m (Table.mem_of_get? here) hcalled' (hlocking hcalled) slot'' slot' p' hp'' hp'
  | @duel m _ _ _ free _ battles _ =>
      refine hI.put (m := m) (fun _ slot p hp n hn hlocking slot' hp' => ?_) (fun x hx => Table.mem_add hx) battles
      exact busyElsewhere_eq_false (free slot p hp) hn hlocking hp'
  | @decide m m' w db1 _ here remains decided winner ready battles _ advanced =>
      have hid : m'.id = m.id := Match.id_of_static remains.static
      have hover : ¬ m'.status.locking = true := by
        rw [decided]
        exact fun h => by cases h
      have hI1 : NobodyTwice db1 :=
        hI.put_same here battles hid remains.players fun h => absurd h hover
      have hsends : m'.Sends w = m.Sends w := by
        funext q p
        rw [Match.Sends, Match.Sends, Match.nextMatch_of_static remains.static,
          Match.loserNextMatch_of_static remains.static, remains.players]
      -- the rows that may be called are those there were
      have hrow : ∀ x ∈ db1.battles.rows, x.status.locking = true → x ∈ db.battles.rows ∧ x.id ≠ m'.id := by
        intro x hx hlocking
        rw [battles] at hx
        rcases Table.mem_put hx with rfl | ⟨hx, hne⟩
        · exact absurd hlocking hover
        · exact ⟨hx, hne⟩
      refine hI1.advanced advanced winner (fun x hx hlocking => (hrow x hx hlocking).2) ?_
      intro q p hsent n hn hlocking x hx hlocking' hne hne' slot
      rw [hsends] at hsent ⊢
      have here' : db.match? q.1 = some n := by
        rw [← show n.id = q.1 from Table.key_of_get? hn]
        exact Table.get?_of_mem (hrow n (Table.mem_of_get? hn) hlocking).1
      exact ready q p hsent n here' hlocking x (hrow x hx hlocking').1 hlocking' (hid ▸ hne) hne' slot
  | @redraw _ _ _ _ _ u battles wellFormed here _ _ run =>
      obtain ⟨_, _, _, _, hbuilds⟩ := buildBracket_builds run (wellFormed.seeded _ (Table.mem_of_get? here))
      have hold : ∀ x ∈ u.db.battles.rows, x.status.locking = true → x ∈ db.battles.rows := by
        intro x hx hlocking
        rcases hbuilds.cases wellFormed.below hx with ⟨_, _, hbuilt⟩ | ⟨hx, _⟩
        · rw [hbuilt.idle] at hlocking
          cases hlocking
        · exact battles ▸ hx
      exact fun x hx y hy hlocking hlocking' => hI x (hold x hx hlocking) y (hold y hy hlocking') hlocking hlocking'

end

/-! ## Over runs -/

/-- Whatever match the operation gives to a player, whoever it sends on is clear. -/
def SendsClearly (site : Site) (op : Op) (db : Db) : Prop := op.Clears (fun db m w => m.SendsClear db w) site db

/-- **Nobody plays two matches at once**, in every state of a run whose results send nobody on to a called match who
    is in another one. -/
theorem nobody_twice {db : Db} (hrun : Run SendsClearly {} db) : NobodyTwice db :=
  hrun.turns False (fun db m w => m.SendsClear db w) .empty (fun _ hm => absurd hm List.not_mem_nil) (fun _ h => h.elim)
    (fun hallowed _ _ => hallowed) NobodyTwice.turn

/-- While only one match is called or being played, whoever goes on is clear. -/
theorem sendsClearly_of_one {site : Site} {op : Op} {db : Db} (i : MatchId)
    (h : db.battles.rows.all fun m => !m.status.locking || m.id = i) : SendsClearly site op db := by
  have hone : ∀ m ∈ db.battles.rows, m.status.locking = true → m.id = i := fun m hm hlocking => by
    simpa [hlocking] using List.all_eq_true.mp h m hm
  intro _ m w _ _ q p _ n hn hlocking x hx hlocking' _ hne
  exact absurd ((hone x hx hlocking').trans (hone n (Table.mem_of_get? hn) hlocking).symm) hne

/-- A tournament of four. -/
def cupOfFour : Op :=
  .organize 9 (.createTournament "Cup" [some 1, some 2, some 3, some 4] .manual false {} "" none true none .pending)

/-- Its semifinals given to the first seeds, and its final called. -/
def finalCalled : List (Site × Op) :=
  ([cupOfFour, .organize 9 (.onTournament 1 none .start), .organize 9 (.onMatch 3 none (.walkover .a)),
    .organize 9 (.onMatch 4 none (.walkover .a)), .organize 9 (.onMatch 2 none .call)] : List Op).map
      fun op => ({ now := 0 }, op)

/-- The first semifinal corrected. -/
def correction : Site × Op := ({ now := 0 }, .organize 9 (.onMatch 3 none (.setWinner .b)))

/-- The loser of the first semifinal called to a quick battle. -/
def rematch : Site × Op :=
  ({ now := 0 }, .organize 9 (.createDuel ⟨some 4, some 5⟩ [[{ id := 7 }]] 1 {} (.both "") "" true .pending))

theorem nobody_twice_corrected : NobodyTwice (Db.play {} (finalCalled ++ [correction])) := by
  refine nobody_twice (Run.ofAllowed .refl ?_)
  refine ⟨?_, ?_, ?_, ?_, ?_, ?_, trivial⟩ <;>
  · refine sendsClearly_of_one 2 ?_
    decide +kernel

/-- The final is called when its semifinal is corrected, and the player it goes to is in a quick battle. -/
theorem plays_twice : ¬ ∀ db, Reachable db → NobodyTwice db := by
  intro h
  have hshared : (Db.play {} (finalCalled ++ [rematch, correction])).battles.rows.any fun m =>
      m.status.locking && m.players.a = some 4 && (Db.play {} (finalCalled ++ [rematch, correction])).battles.rows.any
        fun n => n.status.locking && n.players.a = some 4 && m.id ≠ n.id := by decide +kernel
  obtain ⟨m, hm, hshared⟩ := List.any_eq_true.mp hshared
  simp only [Bool.and_eq_true, decide_eq_true_eq, List.any_eq_true] at hshared
  obtain ⟨⟨hcalled, hplays⟩, n, hn, ⟨hcalled', hplays'⟩, hne⟩ := hshared
  exact hne (h _ (Run.play _) m hm n hn hcalled hcalled' .a .a 4 hplays hplays')

end Arena
end CpcJudge
