import CpcJudge.Markdown.Samples

/-!
# The remembered search of `SampleTableRule`

The lexer tries the table at every line that a paragraph stops at, and a try that finds no `||end` is remembered, by the
length of what was left of the text. The lexer itself is a parameter: it goes through states, asks for the table on what
is left of the text it is parsing, and parses other texts on the way. What it does with a match is its own.
-/

namespace CpcJudge.Markdown

/-! ## The patterns -/

/-- A match of the table: how long it is, and the group of its body. -/
structure Found where
  length : ℕ
  body : Option Text
  deriving DecidableEq

/-- `word` without case, then the rest. -/
def afterWord (word text : Text) : Option Text :=
  if word.isEqv (text.take word.length) folds then some (text.drop word.length) else none

/-- Up to three spaces, two bars, a word and blanks: what comes after them. -/
def afterMarker (word text : Text) : Option Text :=
  let rest := text.dropWhile (· = blank)
  if text.length - rest.length ≤ 3 then
    (rest.dropPrefix? [pipe, pipe]).bind fun rest => (afterWord word rest).map (·.dropWhile isBlank)
  else none

/-- `SampleTableRule.start`. -/
def startMatches (text : Text) : Bool :=
  (afterMarker Section.input.word text).any fun rest => rest.isEmpty || rest.head? = some newline

/-- The end of a table, from the newline before it: what comes after it. -/
def afterEnd (text : Text) : Option Text :=
  match text with
  | [] => none
  | c :: rest =>
      if c = newline then
        (afterMarker (Text.ofString "end") rest).bind fun rest =>
          if rest.isEmpty || rest.head? = some newline then some (rest.dropWhile (· = newline)) else none
      else none

/-- The shortest body with an end after it, and what comes after that. -/
def shortestBody : Text → Option (Text × Text)
  | [] => (afterEnd []).map fun rest => ([], rest)
  | c :: text =>
      match afterEnd (c :: text) with
      | some rest => some ([], rest)
      | none => (shortestBody text).map fun found => (c :: found.1, found.2)

/-- `sample_table.match`. The body is tried first, and a table without one only when there is no end below. -/
def sampleTable (text : Text) : Option Found :=
  (afterMarker Section.input.word text).bind fun rest =>
    match rest with
    | [] => none
    | c :: inner =>
        if c = newline then
          match shortestBody inner with
          | some found => some ⟨text.length - found.2.length, some found.1⟩
          | none => (afterEnd rest).map fun after => ⟨text.length - after.length, none⟩
        else none

/-! ## The rule that remembers -/

/-- `SampleTableRule.match`, with `tails` from the last to the first. -/
def ruleMatch (tails : List ℤ) (text : Text) : Option Found × List ℤ :=
  match tails with
  | [] => (if startMatches text then sampleTable text else none, [])
  | tail :: tails =>
      if !startMatches text || (text.length : ℤ) ≤ tail then (none, tail :: tails)
      else
        match sampleTable text with
        | none => (none, text.length :: tails)
        | some found => (some found, tail :: tails)

/-! ## A lexer -/

/-- What a lexer does next: end the text it is parsing, try the table on what is left of it, or parse another text. -/
inductive Action (S : Type) where
  | stop
  | tryTable (suffix : Text) (next : Option Found → S)
  | parse (inner : S) (next : S → S)

/-- A lexer, by what it does in each of its states. -/
structure Lexer (S : Type) where
  step : S → Action S
  /-- The text being parsed. -/
  text : S → Text

/-- The lexer only tries the table on what is left of the text it is parsing, which is the same until it ends. -/
structure Lexer.TriesSuffixes {S : Type} (lexer : Lexer S) : Prop where
  suffix : ∀ s suffix next, lexer.step s = .tryTable suffix next → suffix <:+ lexer.text s
  sameText : ∀ s suffix next, lexer.step s = .tryTable suffix next → ∀ found, lexer.text (next found) = lexer.text s
  sameAfter : ∀ s inner next, lexer.step s = .parse inner next → ∀ t, lexer.text (next t) = lexer.text s

namespace Lexer
variable {S : Type} (lexer : Lexer S)

/-- A run with the pattern matched afresh, of so many steps at most. -/
def runPlain : ℕ → S → Option S
  | 0, _ => none
  | fuel + 1, s =>
      match lexer.step s with
      | .stop => some s
      | .tryTable suffix next => runPlain fuel (next (sampleTable suffix))
      | .parse inner next => (runPlain fuel inner).bind fun t => runPlain fuel (next t)

/-- The same run with the rule that remembers. `parse` pushes a tail, and takes it off when it ends. -/
def runRemembering : ℕ → S → List ℤ → Option (S × List ℤ)
  | 0, _, _ => none
  | fuel + 1, s, tails =>
      match lexer.step s with
      | .stop => some (s, tails)
      | .tryTable suffix next => runRemembering fuel (next (ruleMatch tails suffix).1) (ruleMatch tails suffix).2
      | .parse inner next =>
          (runRemembering fuel inner (-1 :: tails)).bind fun ended => runRemembering fuel (next ended.1) ended.2.tail

/-- `parse` of a text, from the state that starts it. -/
def parsePlain (fuel : ℕ) (s : S) : Option S := lexer.runPlain fuel s

def parseRemembering (fuel : ℕ) (s : S) (tails : List ℤ) : Option (S × List ℤ) :=
  (lexer.runRemembering fuel s (-1 :: tails)).map fun ended => (ended.1, ended.2.tail)

end Lexer

variable {word text u v w rest hdr base : Text} {top : ℤ}

/-! ## Markers stay on their line -/

theorem newline_of_folds {letter : CodePoint} (h : folds letter newline = true) : letter = newline := by
  have hval : newline.val = 0x0a := rfl
  rw [folds, hval] at h
  simp only [Bool.or_eq_true, Bool.and_eq_true, decide_eq_true_eq] at h
  obtain ((h | ⟨⟨hle, -⟩, h⟩) | ⟨-, h | h⟩) | ⟨-, h⟩ := h
  · exact h.symm
  · rw [← h] at hle
    exact absurd hle (by decide)
  · exact absurd h (by decide)
  · exact absurd h (by decide)
  · exact absurd h (by decide)

theorem newline_of_isEqv (h : word.isEqv hdr folds = true) (hmem : newline ∈ hdr) : newline ∈ word := by
  induction word generalizing hdr with
  | nil =>
      cases hdr with
      | nil => exact hmem
      | cons => cases h
  | cons letter word ih =>
      cases hdr with
      | nil => cases h
      | cons c hdr =>
          obtain ⟨hhead, htail⟩ := (Bool.and_eq_true _ _).mp h
          rcases List.mem_cons.mp hmem with hc | hmem
          · rw [← hc] at hhead
            exact newline_of_folds hhead ▸ List.mem_cons_self
          · exact List.mem_cons_of_mem _ (ih htail hmem)

theorem afterWord_append (hword : newline ∉ word) (h : afterWord word text = some rest) :
    ∃ hdr, text = hdr ++ rest ∧ newline ∉ hdr := by
  unfold afterWord at h
  split at h
  next heqv =>
    obtain rfl := Option.some.inj h
    exact ⟨_, (List.take_append_drop _ _).symm, fun hmem => hword (newline_of_isEqv heqv hmem)⟩
  next => cases h

theorem not_mem_takeWhile {p : CodePoint → Bool} (h : p newline = false) : newline ∉ text.takeWhile p := by
  intro hmem
  rw [List.mem_takeWhile_imp hmem] at h
  cases h

theorem afterMarker_append (hword : newline ∉ word) (h : afterMarker word text = some rest) :
    ∃ hdr, text = hdr ++ rest ∧ newline ∉ hdr := by
  unfold afterMarker at h
  dsimp only at h
  split at h
  · obtain ⟨afterBars, hbars, h⟩ := Option.bind_eq_some_iff.mp h
    obtain ⟨afterLetters, hletters, rfl⟩ := Option.map_eq_some_iff.mp h
    obtain ⟨bars, hsplit, hpipes⟩ := List.dropPrefix?_eq_some_iff.mp hbars
    obtain rfl := eq_of_beq hpipes
    obtain ⟨letters, rfl, hnone⟩ := afterWord_append hword hletters
    refine ⟨text.takeWhile (· = blank) ++ [pipe, pipe] ++ letters ++ afterLetters.takeWhile isBlank, ?_, ?_⟩
    · simp only [List.append_assoc, List.takeWhile_append_dropWhile]
      rw [← hsplit, List.takeWhile_append_dropWhile]
    · simp only [List.mem_append, not_or]
      exact ⟨⟨⟨not_mem_takeWhile (by decide), by decide⟩, hnone⟩, not_mem_takeWhile (by decide)⟩
  · cases h

/-! ## Where there is a table -/

theorem head_of_afterEnd (h : (afterEnd w).isSome) : ∃ rest, w = newline :: rest := by
  cases w with
  | nil => cases h
  | cons c rest =>
      by_cases hc : c = newline
      · exact ⟨rest, by rw [hc]⟩
      · rw [afterEnd, if_neg hc] at h
        cases h

/-- There is a body if there is an end somewhere below. -/
theorem shortestBody_isSome : (shortestBody text).isSome ↔ ∃ w, w <:+ text ∧ (afterEnd w).isSome := by
  induction text with
  | nil =>
      rw [shortestBody, Option.isSome_map]
      constructor
      · exact fun h => ⟨[], List.suffix_rfl, h⟩
      · rintro ⟨w, hw, h⟩
        rwa [List.suffix_nil.mp hw] at h
  | cons c text ih =>
      rw [shortestBody]
      split
      next after hafter => exact ⟨fun _ => ⟨_, List.suffix_rfl, by rw [hafter]; rfl⟩, fun _ => rfl⟩
      next hafter =>
        rw [Option.isSome_map, ih]
        constructor
        · rintro ⟨w, hw, h⟩
          exact ⟨w, hw.trans (List.suffix_cons c text), h⟩
        · rintro ⟨w, hw, h⟩
          rcases List.suffix_cons_iff.mp hw with rfl | hw
          · rw [hafter] at h
            cases h
          · exact ⟨w, hw, h⟩

/-- There is a table if the line of its marker ends and there is an end below it, from that end of line on. -/
theorem sampleTable_isSome : (sampleTable text).isSome ↔
    ∃ inner, afterMarker Section.input.word text = some (newline :: inner) ∧
      ∃ w, w <:+ newline :: inner ∧ (afterEnd w).isSome := by
  rw [sampleTable]
  cases hmarker : afterMarker Section.input.word text with
  | none => simp
  | some rest =>
      cases rest with
      | nil => simp
      | cons c inner =>
          rw [Option.bind_some]
          dsimp only
          by_cases hc : c = newline
          · subst hc
            rw [if_pos rfl]
            have hfound : (∃ w, w <:+ newline :: inner ∧ (afterEnd w).isSome) ↔
                (afterEnd (newline :: inner)).isSome ∨ (shortestBody inner).isSome := by
              rw [shortestBody_isSome]
              constructor
              · rintro ⟨w, hw, h⟩
                rcases List.suffix_cons_iff.mp hw with rfl | hw
                · exact .inl h
                · exact .inr ⟨w, hw, h⟩
              · rintro (h | ⟨w, hw, h⟩)
                · exact ⟨_, List.suffix_rfl, h⟩
                · exact ⟨w, hw.trans (List.suffix_cons _ _), h⟩
            have hinner : (∃ inner', some (newline :: inner) = some (newline :: inner') ∧
                ∃ w, w <:+ newline :: inner' ∧ (afterEnd w).isSome) ↔
                  ∃ w, w <:+ newline :: inner ∧ (afterEnd w).isSome := by simp
            rw [hinner, hfound]
            cases hbody : shortestBody inner with
            | some found => simp
            | none => simp
          · rw [if_neg hc]
            simp [hc]

theorem startMatches_of_sampleTable (h : (sampleTable text).isSome) : startMatches text = true := by
  obtain ⟨inner, hmarker, -⟩ := sampleTable_isSome.mp h
  rw [startMatches, hmarker]
  rfl

/-- The end of a table in the rest of a text is an end for any earlier start. -/
theorem sampleTable_of_suffix (hstart : startMatches u = true) (hsuffix : v <:+ u)
    (h : (sampleTable v).isSome) : (sampleTable u).isSome := by
  obtain ⟨inner, hmarker, w, hw, hend⟩ := sampleTable_isSome.mp h
  obtain ⟨line, hv, -⟩ := afterMarker_append (by decide) hmarker
  obtain ⟨rest, hrest, hstop⟩ := (Option.any_eq_true _ _).mp hstart
  obtain ⟨start, hu, hnone⟩ := afterMarker_append (by decide) hrest
  obtain ⟨after, hnewline⟩ := head_of_afterEnd hend
  have hwu : w <:+ u := (hw.trans ⟨line, hv.symm⟩).trans hsuffix
  -- the end starts with a newline, so that it is not in the line of the marker
  have hbelow : w <:+ rest := by
    rcases List.suffix_or_suffix_of_suffix hwu ⟨start, hu.symm⟩ with hbelow | ⟨between, hbetween⟩
    · exact hbelow
    · obtain ⟨first, hfirst⟩ := hwu
      rw [← hbetween, ← List.append_assoc, hu] at hfirst
      have hstart := List.append_cancel_right hfirst
      cases between with
      | nil => exact ⟨[], hbetween.symm⟩
      | cons c between =>
          rw [hnewline] at hbetween
          obtain rfl := (List.cons.inj hbetween).1
          exact absurd (hstart ▸ List.mem_append_right _ List.mem_cons_self) hnone
  cases rest with
  | nil =>
      rw [List.suffix_nil.mp hbelow] at hnewline
      cases hnewline
  | cons c inner =>
      have hc : c = newline := by simpa using hstop
      rw [hc] at hrest hbelow
      exact sampleTable_isSome.mpr ⟨inner, hrest, w, hbelow, hend⟩

/-! ## What is remembered -/

/-- There is no table in a tail of the text that is not longer than the one remembered. -/
def Forgets (base : Text) (top : ℤ) : Prop :=
  ∀ v : Text, v <:+ base → (v.length : ℤ) ≤ top → sampleTable v = none

/-- Nothing is remembered of a text that is about to be parsed. -/
theorem forgets_start (base : Text) : Forgets base (-1) := by
  intro v _ hle
  omega

/-- A try on a tail of the text says what the pattern says, and remembers only what is so. -/
theorem ruleMatch_eq (tails : List ℤ) (hforgets : Forgets base top) (hsuffix : u <:+ base) :
    (ruleMatch (top :: tails) u).1 = sampleTable u ∧
      ∃ top', (ruleMatch (top :: tails) u).2 = top' :: tails ∧ Forgets base top' := by
  by_cases hstart : startMatches u = true
  · by_cases hle : (u.length : ℤ) ≤ top
    · have hskip : ruleMatch (top :: tails) u = (none, top :: tails) := by simp [ruleMatch, hle]
      rw [hskip]
      exact ⟨(hforgets u hsuffix hle).symm, top, rfl, hforgets⟩
    · cases htable : sampleTable u with
      | some found =>
          have hfound : ruleMatch (top :: tails) u = (some found, top :: tails) := by
            simp [ruleMatch, hstart, hle, htable]
          rw [hfound]
          exact ⟨rfl, top, rfl, hforgets⟩
      | none =>
          have hlost : ruleMatch (top :: tails) u = (none, (u.length : ℤ) :: tails) := by
            simp [ruleMatch, hstart, hle, htable]
          rw [hlost]
          refine ⟨rfl, _, rfl, fun v hv hshort => ?_⟩
          have hvu : v <:+ u := List.suffix_of_suffix_length_le hv hsuffix (by omega)
          by_contra hne
          have hsome := sampleTable_of_suffix hstart hvu (Option.isSome_iff_ne_none.mpr hne)
          rw [htable] at hsome
          cases hsome
  · have hskip : ruleMatch (top :: tails) u = (none, top :: tails) := by simp [ruleMatch, hstart]
    have hnone : sampleTable u = none := by
      by_contra hne
      exact hstart (startMatches_of_sampleTable (Option.isSome_iff_ne_none.mpr hne))
    rw [hskip]
    exact ⟨hnone.symm, top, rfl, hforgets⟩

/-! ## Whole texts -/

namespace Lexer
variable {S : Type} {lexer : Lexer S}

/-- While a text is being parsed, what is remembered of it is so, and the texts around it are put back. -/
theorem runRemembering_eq (h : lexer.TriesSuffixes) (fuel : ℕ) (s : S) (tails : List ℤ)
    (hforgets : Forgets (lexer.text s) top) :
    (lexer.runRemembering fuel s (top :: tails)).map (fun ended => (ended.1, ended.2.tail)) =
      (lexer.runPlain fuel s).map fun t => (t, tails) := by
  induction fuel generalizing s top tails with
  | zero => rfl
  | succ fuel ih =>
      rw [runRemembering, runPlain]
      cases hstep : lexer.step s with
      | stop => rfl
      | tryTable suffix next =>
          obtain ⟨hsame, top', htails, hforgets'⟩ := ruleMatch_eq tails hforgets (h.suffix s suffix next hstep)
          dsimp only
          rw [hsame, htails]
          refine ih (next (sampleTable suffix)) tails ?_
          rwa [h.sameText s suffix next hstep]
      | parse inner next =>
          have hinner := ih inner (top :: tails) (forgets_start _)
          dsimp only
          cases hplain : lexer.runPlain fuel inner with
          | none =>
              rw [hplain, Option.map_none, Option.map_eq_none_iff] at hinner
              rw [hinner]
              rfl
          | some t =>
              rw [hplain, Option.map_some, Option.map_eq_some_iff] at hinner
              obtain ⟨⟨ended, left⟩, hrun, heq⟩ := hinner
              obtain ⟨rfl, hleft⟩ := Prod.ext_iff.mp heq
              rw [hrun, Option.bind_some, Option.bind_some]
              dsimp only at hleft ⊢
              rw [hleft]
              refine ih (next ended) tails ?_
              rwa [h.sameAfter s inner next hstep]

/-- A text is parsed to the same state with the search remembered, and what was remembered of the texts around it is
left as it was. -/
theorem parseRemembering_eq (h : lexer.TriesSuffixes) (fuel : ℕ) (s : S) (tails : List ℤ) :
    lexer.parseRemembering fuel s tails = (lexer.parsePlain fuel s).map fun t => (t, tails) :=
  runRemembering_eq h fuel s tails (forgets_start _)

/-- A lexer of texts that are all tables and lines of their markers: it parses the body of a table as a text of its
own, and leaves a line where there is no table. -/
structure Scan where
  text : Text
  position : ℕ
  body : Option Text
  tokens : List (Option Text)
  deriving DecidableEq

def scanner : Lexer Scan where
  step s :=
    match s.body with
    | some body =>
        .parse ⟨body, 0, none, []⟩ fun t => { s with body := none, tokens := s.tokens ++ [none] ++ t.tokens }
    | none =>
        if s.text.length ≤ s.position then .stop
        else
          .tryTable (s.text.drop s.position) fun found =>
            match found with
            | some found => { s with position := s.position + found.length, body := some (found.body.getD []) }
            | none =>
                let line := (s.text.drop s.position).takeWhile (· ≠ newline)
                { s with position := s.position + line.length + 1, tokens := s.tokens ++ [some line] }
  text s := s.text

theorem scanner_triesSuffixes : scanner.TriesSuffixes where
  suffix s suffix next hstep := by
    unfold scanner at hstep
    dsimp only at hstep
    split at hstep
    · cases hstep
    · split at hstep
      · cases hstep
      · cases hstep
        exact List.drop_suffix _ _
  sameText s suffix next hstep found := by
    unfold scanner at hstep
    dsimp only at hstep
    split at hstep
    · cases hstep
    · split at hstep
      · cases hstep
      · cases hstep
        cases found <;> rfl
  sameAfter s inner next hstep t := by
    unfold scanner at hstep
    dsimp only at hstep
    split at hstep
    · cases hstep
      rfl
    · split at hstep <;> cases hstep

/-- A table inside a table, and a line without an end. -/
theorem parseRemembering_eq_nested :
    scanner.parseRemembering 20
        ⟨Text.ofString "||input\n||input\n||end\n||input\n||input", 0, none, []⟩ [3] =
      some (⟨Text.ofString "||input\n||input\n||end\n||input\n||input", 38, none,
        [none, some (Text.ofString "||input"), some (Text.ofString "||input"), some (Text.ofString "||input")]⟩, [3]) :=
  (parseRemembering_eq scanner_triesSuffixes 20 _ [3]).trans (by decide +kernel)

end Lexer

end CpcJudge.Markdown
