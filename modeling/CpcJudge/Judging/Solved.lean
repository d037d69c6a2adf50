import CpcJudge.Contest.Cells
import CpcJudge.Judging.Rescore

/-!
# `Judging.Solved` — what is stored of the submissions of a profile

The points of a profile, its performance points and its number of problems are stored, and the problems it completed are
cached. The end of a grading computes the former and forgets the latter. The other ways a judging can end do neither:
what is stored stays right as long as they end only judgings of submissions that counted for nothing.
-/

namespace CpcJudge
namespace Judging

open Contest (maximum maximum_spec maximum_eq)

/-- `is_public and not is_organization_private`. -/
def Problem.isListed (p : Problem) : Bool := p.isPublic && !p.isOrganizationPrivate

/-- A submission of a profile; one of a team counts for no profile. -/
structure ProfileSubmission where
  id : ℕ
  problem : ℕ
  ofTeam : Bool := false
  submission : Submission := {}
  deriving DecidableEq, Repr

/-- `Profile`, with its submissions and the cached `user_completed_ids`. -/
structure Profile where
  points : ℚ := 0
  performancePoints : ℚ := 0
  problemCount : ℕ := 0
  submissions : List ProfileSubmission := []
  completed : Option (Finset ℕ) := none

/-! ## What is computed -/

/-- Accepted, with all the points of its cases. -/
def ProfileSubmission.solves (s : ProfileSubmission) : Bool :=
  !s.ofTeam && s.submission.result = some .AC && s.submission.caseTotal ≤ s.submission.casePoints

/-- The query of `user_completed_ids`. -/
def completedIds (submissions : List ProfileSubmission) : Finset ℕ :=
  ((submissions.filter (·.solves)).map (·.problem)).toFinset

/-- Its points are no `NULL`. -/
def ProfileSubmission.scored (s : ProfileSubmission) : Bool := !s.ofTeam && s.submission.points.isSome

def pointsOn (submissions : List ProfileSubmission) (problem : ℕ) : List ℚ :=
  (submissions.filter fun s => s.scored && s.problem = problem).map (·.submission.points.getD 0)

section
variable (problems : ℕ → Problem)

/-- The public problems a profile has points for. -/
def scoredProblems (submissions : List ProfileSubmission) : List ℕ :=
  ((submissions.filter (·.scored)).map (·.problem)).dedup.filter fun problem => (problems problem).isListed

/-- `data`: the most points of each of them, the greatest first, as long as they are positive. -/
def maxPoints (submissions : List ProfileSubmission) : List ℚ :=
  Ranking.sortBy (fun points => -points)
    (((scoredProblems problems submissions).map fun problem => maximum (pointsOn submissions problem)).filter (0 < ·))

/-- `_pp_table`. -/
def ppTable : List ℚ := (List.range 100).map fun i => (95 / 100) ^ i

/-- `DMOJ_PP_BONUS_FUNCTION`. -/
def bonusFunction (n : ℕ) : ℚ := 300 * (1 - (997 / 1000) ^ n)

/-- The number of public problems the profile solved. -/
def countProblems (submissions : List ProfileSubmission) : ℕ :=
  ((completedIds submissions).filter fun problem => (problems problem).isListed).card

/-- `calculate_points`. -/
def Profile.calculatePoints (p : Profile) : Profile :=
  let data := maxPoints problems p.submissions
  let count := countProblems problems p.submissions
  { p with
    points := data.sum
    performancePoints := (List.zipWith (· * ·) ppTable data).sum + bonusFunction count
    problemCount := count }

end

/-- `user_completed_ids`. -/
def Profile.userCompletedIds (p : Profile) : Finset ℕ := p.completed.getD (completedIds p.submissions)

/-! ## Judging -/

/-- `judge_submission`. -/
def Submission.judge (s : Submission) (accepted : Bool) : Submission :=
  if s.status = .P ∨ s.status = .G then s
  else
    let s := { s with
      status := .QU, result := none, points := none, casePoints := 0, caseTotal := 0, testCases := [] }
    if accepted then s else { s with status := .IE, result := some .IE }

/-- The handlers of a judge, but for the end of a grading. -/
def Submission.handle (s : Submission) : Contest.Packet → Submission
  | .processing => { s with status := .P }
  | .gradingBegin => { s with status := .G, testCases := [] }
  | .testCase cases => { s with testCases := s.testCases ++ cases }
  | .compileError => { s with status := .CE, result := some .CE }
  | .internalError => { s with status := .IE, result := some .IE }
  | .terminated => { s with status := .AB, result := some .AB, points := some 0 }

def Submission.beingJudged (s : Submission) : Bool := s.status = .QU || s.status = .P || s.status = .G

/-- What can happen to the submissions of a profile, and to its cache. -/
inductive ProfileEvent where
  | submitted (id problem : ℕ) (ofTeam : Bool)
  | judge (id : ℕ) (accepted : Bool)
  | packet (id : ℕ) (packet : Contest.Packet)
  | gradingEnd (id : ℕ)
  | pageRead
  | expired

/-- The events that write one submission and nothing else. -/
def ProfileSubmission.after (s : ProfileSubmission) : ProfileEvent → ProfileSubmission
  | .judge id accepted => if s.id = id then { s with submission := s.submission.judge accepted } else s
  | .packet id packet => if s.id = id then { s with submission := s.submission.handle packet } else s
  | _ => s

/-- The end of a grading of its submission. -/
def ProfileSubmission.graded (s : ProfileSubmission) (problems : ℕ → Problem) (id : ℕ) : ProfileSubmission :=
  if s.id = id then { s with submission := (s.submission.gradingEnd (problems s.problem)).getD s.submission } else s

namespace Profile

variable (p : Profile) (problems : ℕ → Problem)

/-- The profile has the submission, and its grading ends without raising. -/
def grades (id : ℕ) : Bool :=
  p.submissions.any fun s => s.id = id && (s.submission.gradingEnd (problems s.problem)).isSome

/-- `on_grading_end`: the submission, the stored points if its problem is public, and the cache. -/
def gradingEnd (id : ℕ) : Profile :=
  if p.grades problems id then
    let p := { p with submissions := p.submissions.map fun s : ProfileSubmission => s.graded problems id }
    let p := if p.submissions.any fun s => s.id = id && (problems s.problem).isListed then p.calculatePoints problems
      else p
    { p with completed := none }
  else p

def after (e : ProfileEvent) : Profile :=
  match e with
  | .submitted id problem ofTeam => { p with submissions := p.submissions ++ [{ id, problem, ofTeam }] }
  | .gradingEnd id => p.gradingEnd problems id
  | .pageRead => { p with completed := some p.userCompletedIds }
  | .expired => { p with completed := none }
  | e => { p with submissions := p.submissions.map (·.after e) }

/-- The profile at the end of a history. -/
def run (events : List ProfileEvent) : Profile := events.foldl (fun p e => p.after problems e) p

/-- What is stored is what these submissions make. -/
def Stores (submissions : List ProfileSubmission) : Prop :=
  p.points = (maxPoints problems submissions).sum ∧
    p.performancePoints = (List.zipWith (· * ·) ppTable (maxPoints problems submissions)).sum +
      bonusFunction (countProblems problems submissions) ∧
    p.problemCount = countProblems problems submissions

/-- The stored points and the cache follow the submissions: computing them again changes nothing. -/
structure Follows : Prop where
  stored : p.Stores problems p.submissions
  cached : ∀ ids ∈ p.completed, ids = completedIds p.submissions

end Profile

/-! ## The submissions that count -/

/-- It has points, or completes its problem. -/
def ProfileSubmission.counts (s : ProfileSubmission) : Bool :=
  s.solves || !s.ofTeam && 0 < s.submission.points.getD 0

section
variable {problems : ℕ → Problem} {submissions : List ProfileSubmission} {s : ProfileSubmission} {problem : ℕ} {x : ℚ}

theorem mem_pointsOn : x ∈ pointsOn submissions problem ↔
    ∃ s ∈ submissions, s.ofTeam = false ∧ s.submission.points = some x ∧ s.problem = problem := by
  simp only [pointsOn, List.mem_map, List.mem_filter, ProfileSubmission.scored, Bool.and_eq_true, Bool.not_eq_true',
    decide_eq_true_eq, Option.isSome_iff_exists]
  constructor
  · rintro ⟨s, ⟨hs, ⟨hteam, y, hy⟩, hproblem⟩, rfl⟩
    exact ⟨s, hs, hteam, by rw [hy]; rfl, hproblem⟩
  · rintro ⟨s, hs, hteam, hx, hproblem⟩
    exact ⟨s, ⟨hs, ⟨hteam, x, hx⟩, hproblem⟩, by rw [hx]; rfl⟩

theorem mem_scoredProblems : problem ∈ scoredProblems problems submissions ↔
    (∃ x, x ∈ pointsOn submissions problem) ∧ (problems problem).isListed = true := by
  simp only [scoredProblems, List.mem_filter, List.mem_dedup, List.mem_map, mem_pointsOn, ProfileSubmission.scored,
    Bool.and_eq_true, Bool.not_eq_true', Option.isSome_iff_exists]
  refine and_congr_left fun _ => ?_
  constructor
  · rintro ⟨s, ⟨hs, hteam, x, hx⟩, rfl⟩
    exact ⟨x, s, hs, hteam, hx, rfl⟩
  · rintro ⟨x, s, hs, hteam, hx, rfl⟩
    exact ⟨s, ⟨hs, hteam, x, hx⟩, rfl⟩

/-- The most points of a problem, where they are positive, are those of a submission that counts. -/
theorem maximum_counts (h : 0 < maximum (pointsOn submissions problem)) :
    (∃ x, x ∈ pointsOn (submissions.filter (·.counts)) problem) ∧
      maximum (pointsOn (submissions.filter (·.counts)) problem) = maximum (pointsOn submissions problem) := by
  have hne : pointsOn submissions problem ≠ [] := by
    intro hnil
    rw [hnil] at h
    exact lt_irrefl _ h
  obtain ⟨hmem, hmax⟩ := maximum_spec hne
  obtain ⟨s, hs, hteam, hx, hproblem⟩ := mem_pointsOn.mp hmem
  have hcounts : s.counts = true := by simp [ProfileSubmission.counts, hteam, hx, h]
  have hin := mem_pointsOn.mpr ⟨s, List.mem_filter.mpr ⟨hs, hcounts⟩, hteam, hx, hproblem⟩
  refine ⟨⟨_, hin⟩, maximum_eq hin fun y hy => hmax y ?_⟩
  obtain ⟨t, ht, ht'⟩ := mem_pointsOn.mp hy
  exact mem_pointsOn.mpr ⟨t, List.mem_of_mem_filter ht, ht'⟩

theorem maximum_of_counts (h : 0 < maximum (pointsOn (submissions.filter (·.counts)) problem)) :
    0 < maximum (pointsOn submissions problem) := by
  have hne : pointsOn (submissions.filter (·.counts)) problem ≠ [] := by
    intro hnil
    rw [hnil] at h
    exact lt_irrefl _ h
  obtain ⟨s, hs, hs'⟩ := mem_pointsOn.mp (maximum_spec hne).1
  have hin := mem_pointsOn.mpr ⟨s, List.mem_of_mem_filter hs, hs'⟩
  exact h.trans_le ((maximum_spec (List.ne_nil_of_mem hin)).2 _ hin)

/-- A list in order is the only one with its elements. -/
theorem sortBy_perm {l l' : List ℚ} (h : l.Perm l') :
    Ranking.sortBy (fun points => -points) l = Ranking.sortBy (fun points => -points) l' := by
  obtain ⟨hperm, hsorted, _⟩ := @Ranking.isStableSort_sortBy ℚ ℚ _ (fun points => -points) l
  obtain ⟨hperm', hsorted', _⟩ := @Ranking.isStableSort_sortBy ℚ ℚ _ (fun points => -points) l'
  refine List.Perm.eq_of_pairwise (fun x y _ _ hxy hyx => ?_) hsorted hsorted' (hperm.trans (h.trans hperm'.symm))
  exact le_antisymm (neg_le_neg_iff.mp hyx) (neg_le_neg_iff.mp hxy)

/-- Only the submissions that count make a difference to the points, -/
theorem maxPoints_counts : maxPoints problems (submissions.filter (·.counts)) = maxPoints problems submissions := by
  let most := fun problem => maximum (pointsOn submissions problem)
  let most' := fun problem => maximum (pointsOn (submissions.filter (·.counts)) problem)
  have hnodup : ∀ submissions, (scoredProblems problems submissions).Nodup :=
    fun submissions => (List.nodup_dedup _).sublist List.filter_sublist
  have hproblems : ((scoredProblems problems (submissions.filter (·.counts))).filter (0 < most' ·)).Perm
      ((scoredProblems problems submissions).filter (0 < most ·)) := by
    rw [List.perm_ext_iff_of_nodup ((hnodup _).sublist List.filter_sublist) ((hnodup _).sublist List.filter_sublist)]
    intro problem
    simp only [List.mem_filter, decide_eq_true_eq, mem_scoredProblems]
    constructor
    · rintro ⟨⟨⟨x, hx⟩, hlisted⟩, hpos⟩
      obtain ⟨s, hs, hs'⟩ := mem_pointsOn.mp hx
      exact ⟨⟨⟨x, mem_pointsOn.mpr ⟨s, List.mem_of_mem_filter hs, hs'⟩⟩, hlisted⟩, maximum_of_counts hpos⟩
    · rintro ⟨⟨_, hlisted⟩, hpos⟩
      obtain ⟨hx, heq⟩ := maximum_counts hpos
      exact ⟨⟨hx, hlisted⟩, hpos.trans_eq heq.symm⟩
  have hsame : ((scoredProblems problems submissions).filter (0 < most ·)).map most' =
      ((scoredProblems problems submissions).filter (0 < most ·)).map most :=
    List.map_congr_left fun problem hproblem =>
      (maximum_counts (of_decide_eq_true (List.mem_filter.mp hproblem).2)).2
  have hdata : (((scoredProblems problems (submissions.filter (·.counts))).map most').filter (0 < ·)).Perm
      (((scoredProblems problems submissions).map most).filter (0 < ·)) := by
    rw [List.filter_map, List.filter_map]
    exact (hproblems.map most').trans (hsame ▸ List.Perm.refl _)
  exact sortBy_perm hdata

/-- or to the problems that were completed. -/
theorem completedIds_counts : completedIds (submissions.filter (·.counts)) = completedIds submissions := by
  have hfilter : (submissions.filter (·.counts)).filter (·.solves) = submissions.filter (·.solves) := by
    rw [List.filter_filter]
    refine List.filter_congr fun s _ => ?_
    cases hsolves : s.solves <;> simp [ProfileSubmission.counts, hsolves]
  rw [completedIds, hfilter, completedIds]

theorem Profile.stores_congr {p : Profile} {submissions' : List ProfileSubmission}
    (h : submissions.filter (·.counts) = submissions'.filter (·.counts)) :
    p.Stores problems submissions ↔ p.Stores problems submissions' := by
  have hmax : maxPoints problems submissions = maxPoints problems submissions' := by
    rw [← maxPoints_counts, h, maxPoints_counts]
  have hcount : countProblems problems submissions = countProblems problems submissions' := by
    rw [countProblems, ← completedIds_counts, h, completedIds_counts, countProblems]
  rw [Profile.Stores, Profile.Stores, hmax, hcount]

end

/-! ## Between two computations -/

/-- A profile, with its submissions as they were when its points were last computed, or sent if that was later. -/
structure Computed where
  profile : Profile
  seen : List ProfileSubmission

def Computed.after (t : Computed) (problems : ℕ → Problem) (e : ProfileEvent) : Computed where
  profile := t.profile.after problems e
  seen := match e with
    | .submitted id problem ofTeam => t.seen ++ [{ id, problem, ofTeam }]
    | .gradingEnd id => if t.profile.grades problems id then (t.profile.after problems e).submissions else t.seen
    | _ => t.seen

/-- A submission the event leaves judged, without the end of a grading, did not count when the points were computed. -/
def Computed.Allows (t : Computed) (e : ProfileEvent) : Prop :=
  ∀ x ∈ t.profile.submissions.zip t.seen, x.1.after e ≠ x.1 → (x.1.after e).submission.beingJudged = false →
    x.2.counts = false

instance (t : Computed) (e : ProfileEvent) : Decidable (t.Allows e) :=
  inferInstanceAs (Decidable (∀ x ∈ t.profile.submissions.zip t.seen, x.1.after e ≠ x.1 →
    (x.1.after e).submission.beingJudged = false → x.2.counts = false))

/-- Every event of a history is allowed where it happens. -/
def Refreshed (problems : ℕ → Problem) : Computed → List ProfileEvent → Prop
  | _, [] => True
  | t, e :: events => t.Allows e ∧ Refreshed problems (t.after problems e) events

instance decidableRefreshed (problems : ℕ → Problem) : (t : Computed) → (events : List ProfileEvent) →
    Decidable (Refreshed problems t events)
  | _, [] => inferInstanceAs (Decidable True)
  | t, e :: events =>
      have := decidableRefreshed problems (t.after problems e) events
      inferInstanceAs (Decidable (_ ∧ _))

/-- A submission that counted is as it was, or is being judged again; one that did not count does not. -/
structure Known (old new : ProfileSubmission) : Prop where
  same : old.counts = true → new = old ∨ new.submission.beingJudged = true
  none : old.counts = false → new.counts = false

theorem Known.refl (s : ProfileSubmission) : Known s s := ⟨fun _ => .inl rfl, id⟩

/-- Nothing but the end of a grading makes a submission count. -/
theorem ProfileSubmission.counts_after {s : ProfileSubmission} (h : s.counts = false) (e : ProfileEvent) :
    (s.after e).counts = false := by
  simp only [counts, Bool.or_eq_false_iff] at h ⊢
  unfold after
  split
  · split_ifs
    · unfold Submission.judge
      split_ifs
      · exact h
      · simp [solves]
      · simp [solves]
    · exact h
  · rename_i packet
    split_ifs
    · cases packet with
      | compileError => exact ⟨by simp [solves, Submission.handle], h.2⟩
      | internalError => exact ⟨by simp [solves, Submission.handle], h.2⟩
      | terminated => simp [solves, Submission.handle]
      | _ => exact h
    · exact h
  · exact h

section
variable {seen view current : List ProfileSubmission} {e : ProfileEvent}

/-- What was known of the submissions at some moment since is still known after an allowed event. -/
theorem known_after (hknown : List.Forall₂ Known view current)
    (hseen : List.Forall₂ (fun old new : ProfileSubmission => old.counts = false → new.counts = false) seen view)
    (hallows : ∀ x ∈ current.zip seen, x.1.after e ≠ x.1 → (x.1.after e).submission.beingJudged = false →
      x.2.counts = false) : List.Forall₂ Known view (current.map (·.after e)) := by
  induction hknown generalizing seen with
  | nil => exact .nil
  | @cons old new view current hone _ ih =>
      obtain _ | ⟨hold, hseen⟩ := hseen
      rename_i first seen
      refine .cons ⟨fun hcounts => ?_, fun hnone => ?_⟩ (ih hseen fun x hx => hallows x (List.mem_cons_of_mem _ hx))
      · by_cases hsame : new.after e = new
        · dsimp only
          rw [hsame]
          exact hone.same hcounts
        · refine .inr ?_
          by_contra hjudged
          have hfirst := hallows (new, first) List.mem_cons_self hsame (Bool.eq_false_iff.mpr hjudged)
          exact absurd hcounts (Bool.eq_false_iff.mp (hold hfirst))
      · exact ProfileSubmission.counts_after (hone.none hnone) e

/-- Once every judging is over the same submissions count. -/
theorem counts_eq (hknown : List.Forall₂ Known view current)
    (hquiet : ∀ s ∈ current, s.submission.beingJudged = false) :
    view.filter (·.counts) = current.filter (·.counts) := by
  induction hknown with
  | nil => rfl
  | @cons old new view current hone _ ih =>
      have hrest := ih fun s hs => hquiet s (List.mem_cons_of_mem _ hs)
      cases hcounts : old.counts with
      | true =>
          obtain rfl : new = old := (hone.same hcounts).resolve_right
            (Bool.eq_false_iff.mp (hquiet new List.mem_cons_self))
          rw [List.filter_cons_of_pos hcounts, List.filter_cons_of_pos hcounts, hrest]
      | false =>
          rw [List.filter_cons_of_neg (Bool.eq_false_iff.mp hcounts),
            List.filter_cons_of_neg (Bool.eq_false_iff.mp (hone.none hcounts)), hrest]

end

/-- The stored points are those of the submissions as they were; the cache, where there is one, is that of the
submissions as they were at some moment since. -/
structure Computed.Right (t : Computed) (problems : ℕ → Problem) : Prop where
  stored : t.profile.Stores problems t.seen
  known : List.Forall₂ Known t.seen t.profile.submissions
  cached : ∀ ids ∈ t.profile.completed, ∃ view, List.Forall₂ Known view t.profile.submissions ∧
    List.Forall₂ (fun old new : ProfileSubmission => old.counts = false → new.counts = false) t.seen view ∧
    ids = completedIds view

namespace Computed.Right

variable {t : Computed} {problems : ℕ → Problem} {e : ProfileEvent}

theorem known_self (submissions : List ProfileSubmission) : List.Forall₂ Known submissions submissions :=
  List.forall₂_same.mpr fun s _ => Known.refl s

theorem start {p : Profile} (h : p.Follows problems) : Right ⟨p, p.submissions⟩ problems :=
  ⟨h.stored, known_self _, fun ids hids =>
    ⟨p.submissions, known_self _, List.forall₂_same.mpr fun _ _ hs => hs, h.cached ids hids⟩⟩

theorem written (h : t.Right problems) (hallows : t.Allows e) :
    Right ⟨{ t.profile with submissions := t.profile.submissions.map (·.after e) }, t.seen⟩ problems := by
  refine ⟨h.stored, known_after h.known (List.forall₂_same.mpr fun _ _ hs => hs) hallows, fun ids hids => ?_⟩
  obtain ⟨view, hknown, hseen, rfl⟩ := h.cached ids hids
  exact ⟨view, known_after hknown hseen hallows, hseen, rfl⟩

theorem submitted (h : t.Right problems) {new : ProfileSubmission} (hnew : new.counts = false) :
    Right ⟨{ t.profile with submissions := t.profile.submissions ++ [new] }, t.seen ++ [new]⟩ problems := by
  have hcounts : ∀ submissions, (submissions ++ [new]).filter (·.counts) = submissions.filter (·.counts) := by
    intro submissions
    rw [List.filter_append, List.filter_singleton, hnew]
    exact List.append_nil _
  refine ⟨(Profile.stores_congr (hcounts _)).mpr h.stored, List.rel_append h.known (.cons (Known.refl new) .nil),
    fun ids hids => ?_⟩
  obtain ⟨view, hknown, hseen, rfl⟩ := h.cached ids hids
  refine ⟨view ++ [new], List.rel_append hknown (.cons (Known.refl new) .nil),
    List.rel_append hseen (.cons id .nil), ?_⟩
  calc completedIds view
    _ = completedIds (view.filter (·.counts)) := completedIds_counts.symm
    _ = completedIds ((view ++ [new]).filter (·.counts)) := by rw [hcounts]
    _ = completedIds (view ++ [new]) := completedIds_counts

theorem gradingEnd (h : t.Right problems) (hpublic : ∀ k, (problems k).isListed = true) (id : ℕ) :
    (t.after problems (.gradingEnd id)).Right problems := by
  unfold Computed.after Profile.after Profile.gradingEnd
  dsimp only
  split_ifs with hgrades hlisted
  · exact ⟨⟨rfl, rfl, rfl⟩, known_self _, fun ids hids => absurd hids (Option.not_mem_none _)⟩
  · -- some submission of a public problem was graded
    refine absurd ?_ hlisted
    obtain ⟨s, hs, hid⟩ := List.any_eq_true.mp hgrades
    rw [Bool.and_eq_true] at hid
    refine List.any_eq_true.mpr ⟨s.graded problems id, List.mem_map_of_mem hs, ?_⟩
    have hsame : (s.graded problems id).id = s.id := by
      unfold ProfileSubmission.graded
      split_ifs <;> rfl
    rw [Bool.and_eq_true, hsame]
    exact ⟨hid.1, hpublic _⟩
  · exact h

theorem after (h : t.Right problems) (hpublic : ∀ k, (problems k).isListed = true) (hallows : t.Allows e) :
    (t.after problems e).Right problems := by
  cases e with
  | submitted id problem ofTeam => exact h.submitted (by simp [ProfileSubmission.counts, ProfileSubmission.solves])
  | gradingEnd id => exact h.gradingEnd hpublic id
  | pageRead =>
      refine ⟨h.stored, h.known, fun ids hids => ?_⟩
      cases hcache : t.profile.completed with
      | some cached =>
          obtain rfl : cached = ids := by
            simpa [Computed.after, Profile.after, Profile.userCompletedIds, hcache] using hids
          exact h.cached cached hcache
      | none =>
          obtain rfl : completedIds t.profile.submissions = ids := by
            simpa [Computed.after, Profile.after, Profile.userCompletedIds, hcache] using hids
          exact ⟨t.profile.submissions, known_self _, h.known.imp fun _ _ hknown => hknown.none, rfl⟩
  | expired => exact ⟨h.stored, h.known, fun ids hids => absurd hids (Option.not_mem_none _)⟩
  | judge id accepted => exact h.written hallows
  | packet id packet => exact h.written hallows

theorem run (h : t.Right problems) (hpublic : ∀ k, (problems k).isListed = true) {events : List ProfileEvent}
    (hrefreshed : Refreshed problems t events) : ∃ seen, Right ⟨t.profile.run problems events, seen⟩ problems := by
  induction events generalizing t with
  | nil => exact ⟨t.seen, h⟩
  | cons e events ih =>
      obtain ⟨hallows, hrefreshed⟩ := hrefreshed
      exact ih (h.after hpublic hallows) hrefreshed

theorem follows (h : t.Right problems) (hquiet : ∀ s ∈ t.profile.submissions, s.submission.beingJudged = false) :
    t.profile.Follows problems := by
  refine ⟨(Profile.stores_congr (counts_eq h.known hquiet)).mp h.stored, fun ids hids => ?_⟩
  obtain ⟨view, hknown, _, rfl⟩ := h.cached ids hids
  rw [← completedIds_counts, counts_eq hknown hquiet, completedIds_counts]

end Computed.Right

/-- A new profile has nothing stored. -/
theorem new_follows (problems : ℕ → Problem) : Profile.Follows {} problems := by
  refine ⟨⟨rfl, ?_, rfl⟩, fun ids hids => absurd hids (Option.not_mem_none _)⟩
  norm_num [maxPoints, scoredProblems, countProblems, completedIds, bonusFunction, Ranking.sortBy]

/-- A judging in which the submission passes its only case. -/
def passed (id : ℕ) : List ProfileEvent :=
  [.judge id true, .packet id .processing, .packet id .gradingBegin,
    .packet id (.testCase [{ batch := none, points := some 1, total := some 1 }]), .gradingEnd id]

/-- A judging in which the submission does not compile. -/
def notCompiled (id : ℕ) : List ProfileEvent := [.judge id true, .packet id .processing, .packet id .compileError]

end Judging
end CpcJudge
