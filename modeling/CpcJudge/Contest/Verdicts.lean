import CpcJudge.Contest.Scores

/-!
# `Contest.Verdicts` — the contest points follow the verdict

Only the end of a grading updates the contest side. So a participation is watched together with what its
format read of each submission when the totals were last computed: while every submission that is done reads
the same now as it did then, the stored score is that of the current submissions. The end of a grading starts
over from what there is. Any other end has to find a submission without contest points, and may only change what is
read of it where that makes no difference to a total.
-/

namespace CpcJudge
namespace Contest

variable {c : ContestRow} {p : ContestParticipation} {s : ContestSubmission} {e : JudgeEvent} {now : Time}

/-- The contest points of the current verdict of a submission. -/
def ContestSubmission.verdictPoints (s : ContestSubmission) (c : ContestRow) : ℚ :=
  if s.status = .D then s.contestPoints c else 0

/-- The score a recomputation from some submissions would store. -/
def ContestParticipation.scoreFrom (p : ContestParticipation) (c : ContestRow) (submissions : List ContestSubmission) : ℚ :=
  if p.isDisqualified then -9999
  else (updateParticipation { p.scored c with submissions } c.formatConfig c.format c.pointsPrecision).score

/-! ## What an event writes on a submission -/

/-- The end of a grading leaves the points of the verdict. -/
theorem ContestSubmission.gradingEnd_spec {s' : ContestSubmission} (h : s.gradingEnd c = some s') :
    s'.status = .D ∧ s'.points = s'.contestPoints c := by
  simp only [ContestSubmission.gradingEnd, Option.bind_eq_bind, Option.bind_eq_some_iff] at h
  obtain ⟨g, _, result, _, h⟩ := h
  rw [← Option.some.inj h]
  exact ⟨rfl, rfl⟩

/-- No other event touches the contest points, and a submission only gets the cases it is sent. -/
theorem ContestSubmission.afterEvent_spec (s : ContestSubmission) (e : JudgeEvent) :
    (s.afterEvent e).points = s.points ∧ (s.afterEvent e).problem = s.problem ∧
      ((s.afterEvent e).status = .D →
        s.status = .D ∧ (s.afterEvent e).casePoints = s.casePoints ∧ (s.afterEvent e).caseTotal = s.caseTotal) := by
  unfold ContestSubmission.afterEvent
  split
  · split
    · unfold ContestSubmission.judge
      split
      · exact ⟨rfl, rfl, fun h => ⟨h, rfl, rfl⟩⟩
      · dsimp only
        split <;> exact ⟨rfl, rfl, fun h => by simp at h⟩
    · exact ⟨rfl, rfl, fun h => ⟨h, rfl, rfl⟩⟩
  · rename_i packet
    split
    · cases packet with
      | testCase => exact ⟨rfl, rfl, fun h => ⟨h, rfl, rfl⟩⟩
      | _ => exact ⟨rfl, rfl, fun h => by simp [ContestSubmission.handle] at h⟩
    · exact ⟨rfl, rfl, fun h => ⟨h, rfl, rfl⟩⟩
  · split
    · exact ⟨rfl, rfl, fun h => by simp at h⟩
    · exact ⟨rfl, rfl, fun h => ⟨h, rfl, rfl⟩⟩
  · split
    · exact ⟨rfl, rfl, fun h => by simp at h⟩
    · exact ⟨rfl, rfl, fun h => ⟨h, rfl, rfl⟩⟩
  · exact ⟨rfl, rfl, fun h => ⟨h, rfl, rfl⟩⟩

/-! ## The last computation of the totals -/

theorem ContestParticipation.recompute_score (p : ContestParticipation) (c : ContestRow) (now : Time) :
    (p.recomputeResults c now).live.score = p.scoreFrom c p.submissions := by
  have hfreeze : (p.freezeScoreboard c now).scored c = p.scored c ∧
      (p.freezeScoreboard c now).isDisqualified = p.isDisqualified := by
    unfold ContestParticipation.freezeScoreboard
    split <;> exact ⟨rfl, rfl⟩
  simp only [ContestParticipation.recomputeResults, hfreeze.1, hfreeze.2, ContestParticipation.scoreFrom]
  split <;> rfl

theorem ContestParticipation.recompute_submissions (p : ContestParticipation) (c : ContestRow) (now : Time) :
    (p.recomputeResults c now).submissions = p.submissions := by
  unfold ContestParticipation.recomputeResults ContestParticipation.freezeScoreboard
  dsimp only
  split <;> rfl

/-- A participation, with what its format read of each of its submissions when its totals were last computed. -/
structure Traced where
  row : ContestParticipation
  read : List (Option ContestSubmission)

/-- The events that compute the totals of a participation. -/
def ContestParticipation.computes (p : ContestParticipation) (c : ContestRow) : JudgeEvent → Bool
  | .gradingEnd id => p.hasGrading c id
  | .recompute id => p.id = id
  | .setDisqualified id _ => p.id = id
  | _ => false

/-- What counts as read of a submission after an event that does not compute the totals: of one that is done, what
it reads now. -/
def ContestRow.readAfter (c : ContestRow) (e : JudgeEvent) (s : ContestSubmission) (read : Option ContestSubmission) :
    Option ContestSubmission :=
  if (s.afterEvent e).isGraded then c.format.reads (s.afterEvent e) else read

/-- A new submission has not been read. -/
def Traced.judged (t : Traced) (c : ContestRow) (now : Time) (e : JudgeEvent) : Traced :=
  let row := t.row.judged c now e
  { row
    read :=
      if t.row.computes c e then row.submissions.map c.format.reads
      else match e with
        | .submitted id _ _ _ => if t.row.id = id then t.read ++ [none] else t.read
        | .gradingEnd _ | .recompute _ | .setDisqualified _ _ => t.read
        | _ => List.zipWith (c.readAfter e) t.row.submissions t.read }

/-- An event that ends the judging of a submission, and is no end of a grading, finds the submission without contest
points. It leaves it reading as it did when the totals were last computed, or it was not read then, and the format
adds up points and has none that are negative for the best of its problem. -/
def Traced.Allows (t : Traced) (c : ContestRow) (e : JudgeEvent) : Prop :=
  ∀ x ∈ t.row.submissions.zip t.read, x.1.afterEvent e ≠ x.1 → (x.1.afterEvent e).isGraded = true →
    x.1.points = 0 ∧ (x.2 = c.format.reads (x.1.afterEvent e) ∨
      x.2 = none ∧ c.format.sums = true ∧ 0 ≤ bestPoints (t.read.filterMap fun read => read) x.1.problem)

instance (t : Traced) (c : ContestRow) (e : JudgeEvent) : Decidable (t.Allows c e) :=
  inferInstanceAs (Decidable (∀ x ∈ t.row.submissions.zip t.read, x.1.afterEvent e ≠ x.1 →
    (x.1.afterEvent e).isGraded = true → x.1.points = 0 ∧ (x.2 = c.format.reads (x.1.afterEvent e) ∨
      x.2 = none ∧ c.format.sums = true ∧ 0 ≤ bestPoints (t.read.filterMap fun read => read) x.1.problem)))

/-- Every event of a history is allowed where it happens. -/
def Regular (c : ContestRow) : Traced → List (Time × JudgeEvent) → Prop
  | _, [] => True
  | t, e :: events => t.Allows c e.2 ∧ Regular c (t.judged c e.1 e.2) events

instance decidableRegular (c : ContestRow) : (t : Traced) → (events : List (Time × JudgeEvent)) →
    Decidable (Regular c t events)
  | _, [] => inferInstanceAs (Decidable True)
  | t, e :: events =>
      have := decidableRegular c (t.judged c e.1 e.2) events
      inferInstanceAs (Decidable (_ ∧ _))

/-- The stored score is made of what was read, and a submission that is done reads as it did and has the points of its
verdict. -/
structure Traced.Settled (c : ContestRow) (t : Traced) : Prop where
  stored : t.row.live.score = t.row.scoreFrom c (t.read.filterMap fun read => read)
  done : t.row.submissions.Forall₂
    (fun s read => s.isGraded = true → s.points = s.verdictPoints c ∧ read = c.format.reads s) t.read

variable {t : Traced}

/-- The score of a participation depends on what its submissions read. -/
theorem scoreFrom_reads {submissions : List ContestSubmission} :
    p.scoreFrom c (submissions.filterMap c.format.reads) = p.scoreFrom c submissions := by
  unfold ContestParticipation.scoreFrom
  split
  · rfl
  · exact score_reads (p := { p.scored c with submissions }) c.format

/-- Computing the totals settles a participation, if its verdicts are in its points. -/
theorem Traced.Settled.recompute (hpoints : ∀ s ∈ p.submissions, s.isGraded = true → s.points = s.verdictPoints c) :
    Traced.Settled c
      { row := p.recomputeResults c now
        read := (p.recomputeResults c now).submissions.map c.format.reads } := by
  have hscore : ∀ submissions,
      (p.recomputeResults c now).scoreFrom c submissions = p.scoreFrom c submissions := by
    intro submissions
    unfold ContestParticipation.scoreFrom ContestParticipation.recomputeResults ContestParticipation.freezeScoreboard
    dsimp only
    split <;> rfl
  refine ⟨?_, ?_⟩
  · dsimp only
    rw [ContestParticipation.recompute_score, hscore, ContestParticipation.recompute_submissions,
      ← scoreFrom_reads, List.filterMap_map]
    rfl
  · dsimp only
    rw [ContestParticipation.recompute_submissions, List.forall₂_map_right_iff, List.forall₂_same]
    intro s hs hgraded
    exact ⟨hpoints s hs hgraded, rfl⟩

theorem Traced.Settled.length (h : t.Settled c) : t.row.submissions.length = t.read.length := h.done.length_eq

theorem Traced.Settled.pair (h : t.Settled c) {x : ContestSubmission × Option ContestSubmission}
    (hx : x ∈ t.row.submissions.zip t.read) (hgraded : x.1.isGraded = true) :
    x.1.points = x.1.verdictPoints c ∧ x.2 = c.format.reads x.1 :=
  (List.forall₂_iff_zip.mp h.done).2 hx hgraded

/-- An allowed event changes what is read of a submission only by reading a first time one without points. -/
theorem Traced.Settled.readAfter (h : t.Settled c) (hallows : t.Allows c e)
    {x : ContestSubmission × Option ContestSubmission} (hx : x ∈ t.row.submissions.zip t.read) :
    c.readAfter e x.1 x.2 = x.2 ∨
      c.format.sums = true ∧ x.2 = none ∧ ∃ s, c.readAfter e x.1 x.2 = some s ∧ s.points = 0 ∧
        0 ≤ bestPoints (t.read.filterMap fun read => read) s.problem := by
  unfold ContestRow.readAfter
  split
  · rename_i hgraded
    by_cases hsame : x.1.afterEvent e = x.1
    · rw [hsame] at hgraded ⊢
      exact .inl (h.pair hx hgraded).2.symm
    · obtain ⟨hzero, hread | ⟨hnone, hsums, hbest⟩⟩ := hallows x hx hsame hgraded
      · exact .inl hread.symm
      · refine .inr ⟨hsums, hnone, { blank x.1.problem with points := 0 }, ?_, rfl, hbest⟩
        obtain ⟨hpoints, hproblem, _⟩ := x.1.afterEvent_spec e
        cases hformat : c.format with
        | ioi16 => exact absurd (hformat ▸ hsums) (by decide)
        | ecoo => exact absurd (hformat ▸ hsums) (by decide)
        | _ => simp only [Format.reads, hpoints, hproblem, hzero]
  · exact .inl rfl

/-- What an allowed event changes in what is read makes no difference to the score. -/
theorem Traced.Settled.score_readAfter (h : t.Settled c) (hallows : t.Allows c e) :
    t.row.scoreFrom c ((List.zipWith (c.readAfter e) t.row.submissions t.read).filterMap fun read => read) =
      t.row.scoreFrom c (t.read.filterMap fun read => read) := by
  have hzip : List.zipWith (c.readAfter e) t.row.submissions t.read =
      (t.row.submissions.zip t.read).map fun x => c.readAfter e x.1 x.2 := List.map_uncurry_zip_eq_zipWith.symm
  have hread : (t.row.submissions.zip t.read).map (fun x => x.2) = t.read := List.map_snd_zip h.length.ge
  by_cases hsums : c.format.sums = true
  · have hgains : Gains (fun problem => 0 ≤ bestPoints (t.read.filterMap fun read => read) problem) t.read
        (List.zipWith (c.readAfter e) t.row.submissions t.read) := by
      unfold Gains
      rw [hzip]
      nth_rewrite 2 [← hread]
      rw [List.forall₂_map_left_iff, List.forall₂_map_right_iff, List.forall₂_same]
      intro x hx
      exact (h.readAfter hallows hx).imp_right fun hgain => hgain.2
    unfold ContestParticipation.scoreFrom
    split
    · rfl
    · rw [updateParticipation_score _ hsums, updateParticipation_score _ hsums]
      exact congrArg _ hgains.topPoints
  · have hsame : List.zipWith (c.readAfter e) t.row.submissions t.read = t.read := by
      refine hzip.trans (Eq.trans ?_ hread)
      apply List.map_congr_left
      intro x hx
      rcases h.readAfter hallows hx with heq | ⟨hsums', _⟩
      · exact heq
      · exact absurd hsums' hsums
    rw [hsame]

/-- A submission that is done after an allowed event has the points of its verdict. -/
theorem Traced.Settled.points_afterEvent (h : t.Settled c) (hallows : t.Allows c e)
    {x : ContestSubmission × Option ContestSubmission} (hx : x ∈ t.row.submissions.zip t.read)
    (hgraded : (x.1.afterEvent e).isGraded = true) :
    (x.1.afterEvent e).points = (x.1.afterEvent e).verdictPoints c := by
  by_cases hsame : x.1.afterEvent e = x.1
  · rw [hsame] at hgraded ⊢
    exact (h.pair hx hgraded).1
  · have hzero := (hallows x hx hsame hgraded).1
    obtain ⟨hpoints, hproblem, hstatus⟩ := x.1.afterEvent_spec e
    rw [hpoints, ContestSubmission.verdictPoints]
    split
    · rename_i hD
      -- still graded: the verdict is the one it had
      obtain ⟨hD', hcase, htotal⟩ := hstatus hD
      have hold := (h.pair hx (by simp [ContestSubmission.isGraded, hD'])).1
      rw [ContestSubmission.verdictPoints, if_pos hD'] at hold
      rw [hold]
      simp only [ContestSubmission.contestPoints, hproblem, hcase, htotal]
    · exact hzero

/-- The events that write one submission and nothing else keep it settled, where they are allowed. -/
theorem Traced.Settled.afterEvent (h : t.Settled c) (hallows : t.Allows c e) :
    Traced.Settled c
      { row := { t.row with submissions := t.row.submissions.map (·.afterEvent e) }
        read := List.zipWith (c.readAfter e) t.row.submissions t.read } := by
  refine ⟨h.stored.trans (h.score_readAfter hallows).symm, ?_⟩
  have hsubmissions : (t.row.submissions.zip t.read).map (fun x => x.1) = t.row.submissions :=
    List.map_fst_zip h.length.le
  dsimp only
  rw [← List.map_uncurry_zip_eq_zipWith]
  nth_rewrite 1 [← hsubmissions]
  rw [List.map_map, List.forall₂_map_left_iff, List.forall₂_map_right_iff, List.forall₂_same]
  intro x hx hgraded
  exact ⟨h.points_afterEvent hallows hx hgraded, if_pos hgraded⟩

/-- The end of a grading leaves every verdict in the points. -/
theorem ContestParticipation.withGrading_spec {id : ℕ}
    (hpoints : ∀ s ∈ p.submissions, s.isGraded = true → s.points = s.verdictPoints c) :
    ∀ s ∈ (p.withGrading c id).submissions, s.isGraded = true → s.points = s.verdictPoints c := by
  intro s' hs'
  obtain ⟨s, hs, rfl⟩ := List.mem_map.mp hs'
  by_cases hid : s.submission = id
  · rw [if_pos hid]
    cases hgrading : s.gradingEnd c with
    | none => exact hpoints s hs
    | some s' =>
        obtain ⟨hD, hverdict⟩ := ContestSubmission.gradingEnd_spec hgrading
        intro _
        rw [Option.getD_some, ContestSubmission.verdictPoints, if_pos hD, hverdict]
  · rw [if_neg hid]
    exact hpoints s hs

theorem Traced.Settled.verdicts (h : t.Settled c) :
    ∀ s ∈ t.row.submissions, s.isGraded = true → s.points = s.verdictPoints c := by
  intro s hs hgraded
  rw [← List.map_fst_zip h.length.le] at hs
  obtain ⟨x, hx, rfl⟩ := List.mem_map.mp hs
  exact (h.pair hx hgraded).1

/-- One event keeps a participation settled, where it is allowed. -/
theorem Traced.Settled.judged (h : t.Settled c) (hallows : t.Allows c e) : (t.judged c now e).Settled c := by
  unfold Traced.judged
  cases e with
  | submitted id submission problem date =>
      by_cases hid : t.row.id = id
      · subst hid
        simp only [ContestParticipation.judged, ContestParticipation.computes, if_true, Bool.false_eq_true, if_false]
        refine ⟨?_, ?_⟩
        · have hread : (t.read ++ [none]).filterMap (fun read => read) = t.read.filterMap fun read => read := by simp
          dsimp only
          rw [hread]
          exact h.stored
        · -- it is not done, and nothing was read of it
          apply List.rel_append h.done
          exact .cons (fun hgraded => absurd hgraded (by simp [ContestSubmission.isGraded])) .nil
      · simp only [ContestParticipation.judged, ContestParticipation.computes, hid, if_false, Bool.false_eq_true]
        exact h
  | gradingEnd id =>
      simp only [ContestParticipation.judged, ContestParticipation.computes, ContestParticipation.onGradingEnd]
      by_cases hends : t.row.hasGrading c id = true
      · simp only [hends, if_true]
        exact .recompute (ContestParticipation.withGrading_spec h.verdicts)
      · simp only [hends, if_false, Bool.false_eq_true]
        exact h
  | recompute id =>
      simp only [ContestParticipation.judged, ContestParticipation.computes, decide_eq_true_eq]
      by_cases hid : t.row.id = id
      · simp only [hid, if_true]
        exact .recompute h.verdicts
      · simp only [hid, if_false]
        exact h
  | setDisqualified id disqualified =>
      simp only [ContestParticipation.judged, ContestParticipation.computes, decide_eq_true_eq]
      by_cases hid : t.row.id = id
      · subst hid
        simp only [if_true]
        exact .recompute (p := { t.row with isDisqualified := disqualified }) h.verdicts
      · simp only [hid, if_false]
        exact h
  | judge => exact h.afterEvent hallows
  | packet => exact h.afterEvent hallows
  | disconnected => exact h.afterEvent hallows
  | unjudged => exact h.afterEvent hallows

/-! ## Whole histories -/

/-- A participation and its trace at the end of a history. -/
def Traced.judgedRun (t : Traced) (c : ContestRow) (events : List (Time × JudgeEvent)) : Traced :=
  events.foldl (fun t e => t.judged c e.1 e.2) t

theorem Traced.judgedRun_row (t : Traced) (events : List (Time × JudgeEvent)) :
    (t.judgedRun c events).row = t.row.judgedRun c events := by
  induction events generalizing t with
  | nil => rfl
  | cons e events ih =>
      rw [Traced.judgedRun, ContestParticipation.judgedRun, List.foldl_cons, List.foldl_cons]
      exact ih (t.judged c e.1 e.2)

theorem Traced.Settled.judgedRun (h : t.Settled c) {events : List (Time × JudgeEvent)} (hregular : Regular c t events) :
    (t.judgedRun c events).Settled c := by
  induction events generalizing t with
  | nil => exact h
  | cons e events ih =>
      obtain ⟨hallows, hregular⟩ := hregular
      have hstep : (t.judged c e.1 e.2).Settled c := h.judged hallows
      exact ih hstep hregular

/-- Once every judging is over, the stored score is that of the submissions as they are. -/
theorem Traced.Settled.score (h : t.Settled c) (hgraded : ∀ s ∈ t.row.submissions, s.isGraded = true) :
    t.row.live.score = (t.row.recomputeResults c now).live.score := by
  have hread : t.read = t.row.submissions.map c.format.reads :=
    calc t.read
      _ = (t.row.submissions.zip t.read).map (fun x => x.2) := (List.map_snd_zip h.length.ge).symm
      _ = (t.row.submissions.zip t.read).map (fun x => c.format.reads x.1) :=
          List.map_congr_left fun x hx => (h.pair hx (hgraded x.1 (List.of_mem_zip hx).1)).2
      _ = ((t.row.submissions.zip t.read).map (fun x => x.1)).map c.format.reads := by rw [List.map_map]; rfl
      _ = t.row.submissions.map c.format.reads := by rw [List.map_fst_zip h.length.le]
  rw [h.stored, ContestParticipation.recompute_score]
  refine Eq.trans ?_ scoreFrom_reads
  rw [hread, List.filterMap_map]
  rfl

/-- Each row of the board has its own history. -/
theorem Board.judgedRun_rows (b : Board) (events : List (Time × JudgeEvent)) :
    (b.judgedRun events).rows = b.rows.map (·.judgedRun b.contest events) := by
  induction events generalizing b with
  | nil => exact (List.map_id _).symm
  | cons e events ih =>
      rw [Board.judgedRun, List.foldl_cons]
      refine (ih _).trans ?_
      rw [List.map_map]
      rfl

/-- A participation nobody has submitted to. -/
structure ContestParticipation.New (p : ContestParticipation) : Prop where
  submissions : p.submissions = []
  live : p.live = {}
  counted : p.isDisqualified = false

theorem scoreFrom_nil (hcounted : p.isDisqualified = false) : p.scoreFrom c [] = 0 := by
  have hround : ∀ digits, roundDigits digits 0 = 0 := fun digits =>
    Decimal.roundTo_of_onGrid (by positivity) Decimal.onGrid_zero
  rw [ContestParticipation.scoreFrom, if_neg (by simp [hcounted])]
  -- every loop runs over no rows
  cases c.format with
  | default => exact hround _
  | ioi => exact hround _
  | ioi16 => exact hround _
  | icpc => exact hround _
  | atcoder => exact hround _
  | ecoo => exact hround _

theorem ContestParticipation.New.settled (h : p.New) : Traced.Settled c ⟨p, []⟩ := by
  refine ⟨?_, ?_⟩
  · dsimp only
    rw [h.live, List.filterMap_nil, scoreFrom_nil h.counted]
  · rw [h.submissions]
    exact .nil

/-- The contest points follow the verdict as long as every judging that ends without a grading end leaves the score
what it was. -/
theorem contest_points (b : Board) (hnew : ∀ p ∈ b.rows, p.New) (events : List (Time × JudgeEvent))
    (hregular : ∀ p ∈ b.rows, Regular b.contest ⟨p, []⟩ events) :
    ∀ p ∈ (b.judgedRun events).rows,
      (∀ s ∈ p.submissions, s.isGraded = true → s.points = s.verdictPoints b.contest) ∧
      ((∀ s ∈ p.submissions, s.isGraded = true) →
        ∀ now, p.live.score = (p.recomputeResults b.contest now).live.score) := by
  intro q hq
  rw [Board.judgedRun_rows] at hq
  obtain ⟨p, hp, rfl⟩ := List.mem_map.mp hq
  have hsettled : (Traced.judgedRun ⟨p, []⟩ b.contest events).Settled b.contest :=
    (hnew p hp).settled.judgedRun (hregular p hp)
  have hrow : (Traced.judgedRun ⟨p, []⟩ b.contest events).row = p.judgedRun b.contest events :=
    Traced.judgedRun_row ⟨p, []⟩ events
  rw [← hrow]
  exact ⟨hsettled.verdicts, fun hgraded now => hsettled.score hgraded⟩

/-- A contest with one participation that nobody has submitted to. -/
def emptyBoard : Board where
  contest :=
    { startTime := 0, endTime := 7200000000, timeLimit := none, freezeMinutes := none, scoreboardRevealed := false
      format := .default, formatConfig := {}, pointsPrecision := 3, problems := fun _ => { points := 100 } }
  rows := [{ id := 1, realStart := 0, virtual := 0, team := none, isDisqualified := false }]

/-- A judging in which the submission passes its only case. -/
def passed (submission : ℕ) (now : Time) : List (Time × JudgeEvent) :=
  [(now, .judge submission true), (now, .packet submission .processing), (now, .packet submission .gradingBegin),
    (now, .packet submission (.testCase [{ batch := none, points := some 1, total := some 1 }])),
    (now, .gradingEnd submission)]

/-- A judging in which the submission does not compile. -/
def notCompiled (submission : ℕ) (now : Time) : List (Time × JudgeEvent) :=
  [(now, .judge submission true), (now, .packet submission .processing), (now, .packet submission .compileError)]

theorem emptyBoard_new : ∀ p ∈ emptyBoard.rows, p.New := by
  intro p hp
  rw [List.mem_singleton.mp hp]
  exact ⟨rfl, rfl, rfl⟩

/-- A first submission that does not compile, and a second one that is accepted and rejudged. -/
def rejudged : List (Time × JudgeEvent) :=
  [(600000000, .submitted 1 1 1 600000000)] ++ notCompiled 1 600000000 ++ [(900000000, .submitted 1 2 1 900000000)] ++
    passed 2 900000000 ++ passed 2 1200000000

theorem contest_points_rejudged :
    (emptyBoard.judgedRun rejudged).rows.map (·.live.score) = [100] ∧
      ∀ p ∈ (emptyBoard.judgedRun rejudged).rows,
        (∀ s ∈ p.submissions, s.isGraded = true → s.points = s.verdictPoints emptyBoard.contest) ∧
        ((∀ s ∈ p.submissions, s.isGraded = true) →
          ∀ now, p.live.score = (p.recomputeResults emptyBoard.contest now).live.score) := by
  refine ⟨by decide +kernel, ?_⟩
  exact contest_points emptyBoard emptyBoard_new rejudged (by decide +kernel)

/-- An accepted submission that no longer compiles when it is rejudged keeps its points. -/
theorem kept_points :
    (∀ p ∈ emptyBoard.rows, p.New) ∧
      (emptyBoard.judgedRun ([(600000000, .submitted 1 1 1 600000000)] ++ passed 1 600000000 ++
        notCompiled 1 900000000)).rows.map (fun p => p.submissions.map fun s =>
          (s.status, s.isGraded, s.points, s.verdictPoints emptyBoard.contest)) = [[(.CE, true, 100, 0)]] := by
  refine ⟨emptyBoard_new, ?_⟩
  decide +kernel

end Contest
end CpcJudge
