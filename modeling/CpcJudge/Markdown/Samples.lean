import CpcJudge.Lib.Text
import Mathlib.Data.List.DropRight

/-!
# The rows of a sample table

`parse_sample_table` reads the body of a sample table line by line. A marker line, `||input` and the like, says what the
lines under it are, and an `||input` starts a row; the one that opens the table is not in the body. The pattern of the
markers ignores case as Unicode has it, so that it also takes letters that `lower` does not turn into the ASCII ones.
-/

namespace CpcJudge.Markdown

def blank : CodePoint := Text.chr 0x20

def tab : CodePoint := Text.chr 0x09

def newline : CodePoint := Text.chr 0x0a

def pipe : CodePoint := Text.chr 0x7c

/-! ## Marker lines -/

/-- The keys of a row. -/
inductive Section where
  | input
  | output
  | description
  deriving DecidableEq, Repr

namespace Section

def word : Section → Text
  | input => Text.ofString "input"
  | output => Text.ofString "output"
  | description => Text.ofString "description"

def all : List Section := [input, output, description]

end Section

/-- What a small letter of a pattern matches without case: besides the letter and its capital, the dotless and the
dotted I for an i, and the long s for an s. -/
def folds (letter c : CodePoint) : Bool :=
  c = letter || (0x61 ≤ letter.val && letter.val ≤ 0x7a && c.val + 0x20 = letter.val) ||
    (letter.val = 0x69 && (c.val = 0x130 || c.val = 0x131)) || (letter.val = 0x73 && c.val = 0x17f)

/-- `str.lower`, of what the words of the markers match. -/
def lower (text : Text) : Text :=
  text.flatMap fun c =>
    if 0x41 ≤ c.val && c.val ≤ 0x5a then [Text.chr (c.val + 0x20)]
    else if c.val = 0x130 then [Text.chr 0x69, Text.chr 0x307]
    else [c]

def isBlank (c : CodePoint) : Bool := c = blank || c = tab

/-- `SAMPLE_MARKER`: up to three spaces, two bars, the word of a section and blanks. The section of the word comes with
the word as it is spelled. -/
def marker? (line : Text) : Option (Section × Text) :=
  let rest := line.dropWhile (· = blank)
  if line.length - rest.length ≤ 3 then
    (rest.dropPrefix? [pipe, pipe]).bind fun rest =>
      let group := (rest.reverse.dropWhile isBlank).reverse
      (Section.all.find? fun s => s.word.isEqv group folds).map fun s => (s, group)
  else none

/-- `kind`: the word in small letters. -/
def kindOf (line : Text) : Option Text := (marker? line).map fun m => lower m.2

/-- The key that a text is. -/
def keyOf (kind : Text) : Option Section := Section.all.find? (·.word = kind)

/-! ## The loop -/

/-- A row, as the lines under each of its keys. -/
abbrev Row := Section → List Text

def Row.empty : Row := fun _ => []

/-- The variables of `parse_sample_table`. -/
structure Reading where
  rows : List Row
  current : Text

/-- `rows[-1][key].append(line)`. -/
def appendLine (rows : List Row) (key : Section) (line : Text) : List Row :=
  rows.dropLast ++ (rows.getLast?.map fun row => Function.update row key (row key ++ [line])).toList

/-- A line of the body. An error is the key that a row does not have. -/
def readLine (reading : Reading) (line : Text) : Except Text Reading :=
  let kind := kindOf line
  let starts := kind = some Section.input.word ∨ reading.rows.isEmpty
  let rows := if starts then reading.rows ++ [Row.empty] else reading.rows
  let current := if starts then Section.input.word else reading.current
  match kind with
  | some kind => .ok ⟨rows, kind⟩
  | none =>
      match keyOf current with
      | none => .error current
      | some key => .ok ⟨appendLine rows key line, current⟩

def readLines (lines : List Text) : Except Text Reading := lines.foldlM readLine ⟨[], []⟩

/-- `text.strip('\n')`. -/
def stripNewlines (text : Text) : Text := ((text.dropWhile (· = newline)).reverse.dropWhile (· = newline)).reverse

/-- `'\n'.join(lines)`. -/
def joinLines (lines : List Text) : Text := [newline].intercalate lines

/-- The lines of the body of a table, which may have none. -/
def bodyLines (body : Option Text) : List Text := (body.getD []).splitOn newline

/-- The rows of a table, as the text under each key. -/
def sampleRows (body : Option Text) : Except Text (List (Section → Text)) :=
  (readLines (bodyLines body)).map fun reading =>
    reading.rows.map fun row key => stripNewlines (joinLines (row key))

inductive Token (T : Type) where
  | tableStart (descriptions : Bool)
  | rowStart (input output : Text)
  | other (token : T)
  | rowEnd
  | tableEnd

/-- The tokens of a table. A description is parsed as a text of its own. -/
def sampleTokens {T : Type} (parse : Text → List T) (rows : List (Section → Text)) : List (Token T) :=
  let descriptions := rows.any fun row => !(row .description).strip.isEmpty
  .tableStart descriptions ::
    (rows.flatMap fun row =>
      .rowStart (row .input) (row .output) ::
        (if descriptions && !(row .description).strip.isEmpty then (parse (row .description)).map .other else []) ++
          [.rowEnd]) ++
    [.tableEnd]

/-! ## What a table says -/

/-- The section that a marker line is of, however it is spelled. -/
def sectionOf (line : Text) : Option Section := (marker? line).map (·.1)

/-- The row of a line after some others: the `||input` lines before it, besides the one that opens the table. -/
def rowNumber (before : List Text) : ℕ := before.countP (sectionOf · = some .input)

/-- The last marker before a line, if it is not the one that opens the table. -/
def lastMarker (before : List Text) : Option (Section × Text) := (before.filterMap marker?).getLast?

def currentSection (before : List Text) : Section := ((lastMarker before).map (·.1)).getD .input

/-- The lines of a row under the markers of a section, in order. -/
def linesUnder (lines : List Text) (row : ℕ) (key : Section) : List Text :=
  lines.zipIdx.filterMap fun item =>
    if sectionOf item.1 = none ∧ rowNumber (lines.take item.2) = row ∧ currentSection (lines.take item.2) = key then
      some item.1
    else none

/-- The table has a row for each `||input`, with the lines under each marker of it up to newlines at the ends. -/
def KeepsSamples (body : Option Text) : Prop :=
  ∃ rows, sampleRows body = .ok rows ∧ rows.length = rowNumber (bodyLines body) + 1 ∧
    ∀ (i : ℕ) (row : Section → Text), rows[i]? = some row → ∀ key : Section,
      stripNewlines (row key) = stripNewlines (joinLines (linesUnder (bodyLines body) i key))

/-- The marker is not spelled with ASCII letters only. -/
def Odd (m : Section × Text) : Prop := lower m.2 ≠ m.1.word

/-- The first line is no `||input`, and the markers that count are spelled with ASCII letters: those of the inputs, and
those with lines under them. -/
structure Plain (lines : List Text) : Prop where
  first : lines.head?.bind kindOf ≠ some Section.input.word
  inputs : ∀ line ∈ lines, ∀ m, marker? line = some m → m.1 = .input → ¬ Odd m
  contents : ∀ before line after, lines = before ++ line :: after → marker? line = none →
    ∀ m, lastMarker before = some m → ¬ Odd m

variable {before lines : List Text} {line : Text} {m : Section × Text} {key : Section} {reading next : Reading}

/-! ## Markers and their keys -/

theorem foldsText_length {word group : Text} (h : word.isEqv group folds = true) : word.length = group.length := by
  rw [List.isEqv_eq_decide] at h
  split at h
  · assumption
  · cases h

theorem marker_matches (h : marker? line = some m) : m.1.word.isEqv m.2 folds = true := by
  unfold marker? at h
  dsimp only at h
  split at h
  · obtain ⟨rest, -, hfind⟩ := Option.bind_eq_some_iff.mp h
    obtain ⟨s, hs, rfl⟩ := Option.map_eq_some_iff.mp hfind
    exact List.find?_some (p := fun s : Section => s.word.isEqv (rest.reverse.dropWhile isBlank).reverse folds) hs
  · cases h

theorem length_lower {text : Text} (h : ∀ c ∈ text, c.val ≠ 0x130) : (lower text).length = text.length := by
  induction text with
  | nil => rfl
  | cons c text ih =>
      have hc := h c List.mem_cons_self
      have hrest := ih fun d hd => h d (List.mem_cons_of_mem _ hd)
      rw [lower, List.flatMap_cons, List.length_append, ← lower, hrest, List.length_cons, if_neg hc]
      split <;> simp [Nat.add_comm]

/-- A dotted capital I leaves its dot. -/
theorem mem_lower_dot {text : Text} {c : CodePoint} (hc : c ∈ text) (hdotted : c.val = 0x130) :
    Text.chr 0x307 ∈ lower text := by
  refine List.mem_flatMap.mpr ⟨c, hc, ?_⟩
  rw [if_neg (by simp [hdotted]), if_pos hdotted]
  simp

theorem keyOf_word (key : Section) : keyOf key.word = some key := by cases key <;> decide

theorem keyOf_eq_some {kind : Text} : keyOf kind = some key ↔ key.word = kind := by
  constructor
  · intro h
    simpa using List.find?_some h
  · rintro rfl
    exact keyOf_word key

/-- A marker whose word is a key is of the section of that key. -/
theorem section_of_key (hm : marker? line = some m) (hkey : lower m.2 = key.word) : m.1 = key := by
  have hfolds := marker_matches hm
  have hnodot : ∀ c ∈ m.2, c.val ≠ 0x130 := by
    intro c hc hdotted
    have hdot := mem_lower_dot hc hdotted
    rw [hkey] at hdot
    cases key <;> exact absurd hdot (by decide)
  have hlength : m.1.word.length = key.word.length := by
    rw [foldsText_length hfolds, ← length_lower hnodot, hkey]
  revert hlength
  cases m.1 <;> cases key <;> decide

theorem keyOf_lower : keyOf (lower m.2) = some m.1 ↔ ¬ Odd m := by
  rw [keyOf_eq_some, Odd, not_not, eq_comm]

theorem keyOf_lower_eq (hm : marker? line = some m) (hkey : keyOf (lower m.2) = some key) : key = m.1 ∧ ¬ Odd m := by
  have hword := (keyOf_eq_some.mp hkey).symm
  obtain rfl := section_of_key hm hword
  exact ⟨rfl, not_not.mpr hword⟩

theorem kindOf_eq_input : kindOf line = some Section.input.word ↔
    ∃ m, marker? line = some m ∧ m.1 = .input ∧ ¬ Odd m := by
  constructor
  · intro h
    obtain ⟨m, hm, hkind⟩ := Option.map_eq_some_iff.mp h
    obtain ⟨hkey, hodd⟩ := keyOf_lower_eq hm (keyOf_eq_some.mpr hkind.symm)
    exact ⟨m, hm, hkey.symm, hodd⟩
  · rintro ⟨m, hm, hkey, hodd⟩
    rw [kindOf, hm, Option.map_some, not_not.mp hodd, hkey]

/-! ## One line at a time -/

theorem readLines_concat : readLines (before ++ [line]) = (readLines before).bind fun reading => readLine reading line := by
  rw [readLines, List.foldlM_append]
  exact congrArg _ (funext fun reading => bind_pure _)

theorem readLines_concat_ok (h : readLines (before ++ [line]) = .ok next) :
    ∃ reading, readLines before = .ok reading ∧ readLine reading line = .ok next := by
  rw [readLines_concat] at h
  cases hbefore : readLines before with
  | error e =>
      rw [hbefore] at h
      cases h
  | ok reading =>
      rw [hbefore] at h
      exact ⟨reading, rfl, h⟩

@[simp] theorem lastMarker_concat : lastMarker (before ++ [line]) = (marker? line).or (lastMarker before) := by
  rw [lastMarker, List.filterMap_append]
  cases hm : marker? line with
  | none => simp [hm, lastMarker]
  | some m => simp [hm]

@[simp] theorem rowNumber_concat :
    rowNumber (before ++ [line]) = rowNumber before + if sectionOf line = some .input then 1 else 0 := by
  rw [rowNumber, List.countP_append, ← rowNumber, List.countP_singleton]
  simp

theorem linesUnder_concat {row : ℕ} :
    linesUnder (before ++ [line]) row key = linesUnder before row key ++
      if sectionOf line = none ∧ rowNumber before = row ∧ currentSection before = key then [line] else [] := by
  have hbefore : before.zipIdx.filterMap (fun item =>
      if sectionOf item.1 = none ∧ rowNumber ((before ++ [line]).take item.2) = row ∧
        currentSection ((before ++ [line]).take item.2) = key then some item.1 else none) = linesUnder before row key := by
    refine List.filterMap_congr fun item hitem => ?_
    have hlt : item.2 < before.length := by simpa using List.snd_lt_of_mem_zipIdx hitem
    rw [List.take_append_of_le_length hlt.le]
  rw [linesUnder, List.zipIdx_append, List.filterMap_append, hbefore]
  congr 1
  simp only [Nat.zero_add, List.zipIdx_cons, List.zipIdx_nil, List.filterMap_cons, List.filterMap_nil,
    List.take_left' (rfl : before.length = before.length)]
  by_cases hcontent : sectionOf line = none ∧ rowNumber before = row ∧ currentSection before = key
  · simp only [if_pos hcontent]
  · simp only [if_neg hcontent]

/-! ## A line of the body -/

theorem length_appendLine {rows : List Row} (h : rows ≠ []) : (appendLine rows key line).length = rows.length := by
  obtain ⟨first, row, rfl⟩ := (List.eq_nil_or_concat' rows).resolve_left h
  simp [appendLine]

theorem readLine_marker (hm : marker? line = some m) :
    readLine reading line =
      .ok ⟨if kindOf line = some Section.input.word ∨ reading.rows.isEmpty then reading.rows ++ [Row.empty]
        else reading.rows, lower m.2⟩ := by
  have hkind : kindOf line = some (lower m.2) := by rw [kindOf, hm, Option.map_some]
  simp only [readLine, hkind]

theorem readLine_first (hm : marker? line = none) (hrows : reading.rows = []) :
    readLine reading line = .ok ⟨appendLine [Row.empty] .input line, Section.input.word⟩ := by
  have hkind : kindOf line = none := by rw [kindOf, hm, Option.map_none]
  simp [readLine, hkind, hrows, keyOf_word]

theorem readLine_content (hm : marker? line = none) (hrows : reading.rows ≠ []) :
    readLine reading line =
      (keyOf reading.current).elim (.error reading.current) fun key =>
        .ok ⟨appendLine reading.rows key line, reading.current⟩ := by
  have hkind : kindOf line = none := by rw [kindOf, hm, Option.map_none]
  have hstarts : ¬ (none = some Section.input.word ∨ reading.rows.isEmpty = true) := by simpa using hrows
  simp only [readLine, hkind, if_neg hstarts]
  cases keyOf reading.current <;> rfl

/-- The word of the last marker, as the loop keeps it. -/
def currentWord (before : List Text) : Text := ((lastMarker before).map (lower ·.2)).getD Section.input.word

/-- How many rows there are after some lines: one for each `||input` in ASCII letters, and one for the lines before
the first of them. -/
def rowsRead (lines : List Text) : ℕ :=
  lines.countP (kindOf · = some Section.input.word) +
    if lines.head?.bind kindOf = some Section.input.word then 0 else 1

/-- What the loop has read, whatever the lines. -/
structure Read (lines : List Text) (reading : Reading) : Prop where
  length : reading.rows.length = rowsRead lines
  current : reading.current = currentWord lines

theorem Read.rows_ne (h : Read lines reading) (hne : lines ≠ []) : reading.rows ≠ [] := by
  intro hnil
  have hlength := h.length
  rw [hnil, List.length_nil, rowsRead] at hlength
  obtain ⟨line, rest, rfl⟩ := List.exists_cons_of_ne_nil hne
  by_cases hfirst : kindOf line = some Section.input.word
  · rw [List.countP_cons_of_pos (by simpa using hfirst)] at hlength
    omega
  · simp [hfirst] at hlength

theorem rowsRead_concat (hne : before ≠ []) :
    rowsRead (before ++ [line]) = rowsRead before + if kindOf line = some Section.input.word then 1 else 0 := by
  rw [rowsRead, rowsRead, List.countP_append, List.head?_append_of_ne_nil _ hne, List.countP_singleton]
  simp only [decide_eq_true_eq]
  omega

theorem read_of_ok (hne : lines ≠ []) (h : readLines lines = .ok reading) : Read lines reading := by
  induction lines using List.reverseRecOn generalizing reading with
  | nil => exact absurd rfl hne
  | append_singleton before line ih =>
      obtain ⟨old, hbefore, hline⟩ := readLines_concat_ok h
      by_cases hnil : before = []
      · subst hnil
        obtain rfl := Except.ok.inj hbefore
        cases hm : marker? line with
        | some m =>
            rw [readLine_marker hm] at hline
            obtain rfl := Except.ok.inj hline
            refine ⟨?_, by simp [currentWord, lastMarker, hm]⟩
            by_cases hfirst : kindOf line = some Section.input.word <;> simp [rowsRead, hfirst]
        | none =>
            rw [readLine_first hm rfl] at hline
            obtain rfl := Except.ok.inj hline
            have hkind : kindOf line = none := by rw [kindOf, hm, Option.map_none]
            refine ⟨?_, by simp [currentWord, lastMarker, hm]⟩
            simp [rowsRead, hkind, appendLine]
      · have hold := ih hnil hbefore
        cases hm : marker? line with
        | some m =>
            rw [readLine_marker hm] at hline
            obtain rfl := Except.ok.inj hline
            refine ⟨?_, by simp [currentWord, hm]⟩
            rw [rowsRead_concat hnil, ← hold.length]
            by_cases hinput : kindOf line = some Section.input.word <;> simp [hinput, hold.rows_ne hnil]
        | none =>
            rw [readLine_content hm (hold.rows_ne hnil)] at hline
            have hkind : kindOf line = none := by rw [kindOf, hm, Option.map_none]
            cases hkey : keyOf old.current with
            | none =>
                rw [hkey] at hline
                cases hline
            | some key =>
                rw [hkey] at hline
                obtain rfl := Except.ok.inj hline
                refine ⟨?_, by simpa [currentWord, hm] using hold.current⟩
                rw [length_appendLine (hold.rows_ne hnil), hold.length, rowsRead_concat hnil, hkind, if_neg (by simp)]
                rfl

/-! ## Tables that are plain -/

theorem Plain.initial (h : Plain (before ++ [line])) (hne : before ≠ []) : Plain before where
  first := by simpa [List.head?_append_of_ne_nil _ hne] using h.first
  inputs other hother := h.inputs other (List.mem_append_left _ hother)
  contents first other rest heq := h.contents first other (rest ++ [line]) (by simp [heq])

/-- The rows of a plain table say what it says. -/
def rowsOf (lines : List Text) : List Row := (List.range (rowNumber lines + 1)).map fun row => linesUnder lines row

theorem rowNumber_le {i : ℕ} : rowNumber (lines.take i) ≤ rowNumber lines := (List.take_sublist i lines).countP_le

/-- No line stands under a later row. -/
theorem linesUnder_eq_nil {row : ℕ} (h : rowNumber lines < row) : linesUnder lines row key = [] := by
  refine List.filterMap_eq_nil_iff.mpr fun item _ => if_neg fun hhere => ?_
  have hle : rowNumber (lines.take item.2) ≤ rowNumber lines := rowNumber_le
  omega

theorem linesUnder_marker (hm : marker? line = some m) :
    linesUnder (before ++ [line]) = linesUnder before := by
  funext row key
  have hsection : sectionOf line ≠ none := by simp [sectionOf, hm]
  rw [linesUnder_concat, if_neg fun h => hsection h.1, List.append_nil]

theorem rowsOf_marker (hm : marker? line = some m) :
    rowsOf (before ++ [line]) = rowsOf before ++ if m.1 = .input then [Row.empty] else [] := by
  have hsection : sectionOf line = some m.1 := by rw [sectionOf, hm, Option.map_some]
  rw [rowsOf, rowsOf, linesUnder_marker hm, rowNumber_concat, hsection]
  by_cases hinput : m.1 = .input
  · rw [if_pos (congrArg some hinput), if_pos hinput, List.range_succ, List.map_append, List.map_singleton]
    congr 2
    funext key
    exact linesUnder_eq_nil (Nat.lt_succ_self _)
  · rw [if_neg (by simpa using hinput), if_neg hinput, Nat.add_zero, List.append_nil]

theorem rowsOf_content (hm : marker? line = none) :
    rowsOf (before ++ [line]) = appendLine (rowsOf before) (currentSection before) line := by
  have hsection : sectionOf line = none := by rw [sectionOf, hm, Option.map_none]
  have hsame : ∀ row < rowNumber before, linesUnder (before ++ [line]) row = linesUnder before row := by
    intro row hrow
    funext key
    rw [linesUnder_concat, if_neg (by omega), List.append_nil]
  have hlast : linesUnder (before ++ [line]) (rowNumber before) =
      Function.update (linesUnder before (rowNumber before)) (currentSection before)
        (linesUnder before (rowNumber before) (currentSection before) ++ [line]) := by
    funext key
    rw [linesUnder_concat]
    by_cases hkey : key = currentSection before
    · subst hkey
      simp [hsection]
    · rw [Function.update_of_ne hkey, if_neg fun h => hkey h.2.2.symm, List.append_nil]
  rw [rowsOf, rowNumber_concat, hsection, if_neg (by simp), Nat.add_zero, List.range_succ, List.map_append,
    List.map_singleton, hlast, rowsOf, List.range_succ, List.map_append, List.map_singleton, appendLine]
  simp only [List.dropLast_concat, List.getLast?_concat, Option.map_some, Option.toList_some]
  congr 1
  exact List.map_congr_left fun row hrow => hsame row (List.mem_range.mp hrow)

theorem rowsOf_nil : rowsOf [] = [Row.empty] := rfl

theorem currentSection_of_plain (h : Plain (before ++ [line])) (hm : marker? line = none) :
    keyOf (currentWord before) = some (currentSection before) := by
  unfold currentWord currentSection
  cases hlast : lastMarker before with
  | none => exact keyOf_word .input
  | some m => exact keyOf_lower.mpr (h.contents before line [] rfl hm m hlast)

theorem readLines_plain (h : Plain lines) (hne : lines ≠ []) :
    readLines lines = .ok ⟨rowsOf lines, currentWord lines⟩ := by
  induction lines using List.reverseRecOn with
  | nil => exact absurd rfl hne
  | append_singleton before line ih =>
      by_cases hnil : before = []
      · subst hnil
        rw [readLines_concat]
        show readLine ⟨[], []⟩ line = _
        cases hm : marker? line with
        | some m =>
            have hsection : m.1 ≠ .input := by
              intro hinput
              have hkind := kindOf_eq_input.mpr ⟨m, hm, hinput, h.inputs line (by simp) m hm hinput⟩
              exact h.first (by simpa using hkind)
            rw [readLine_marker hm, rowsOf_marker hm, if_pos (.inr rfl), if_neg hsection]
            simp [currentWord, lastMarker, hm, rowsOf_nil]
        | none =>
            rw [readLine_first hm rfl, rowsOf_content hm, rowsOf_nil]
            simp [currentWord, lastMarker, hm, currentSection]
      · have hbefore := ih (h.initial hnil) hnil
        rw [readLines_concat, hbefore]
        have hrows : rowsOf before ≠ [] := by simp [rowsOf]
        cases hm : marker? line with
        | some m =>
            have hinput : kindOf line = some Section.input.word ↔ m.1 = .input := by
              rw [kindOf_eq_input]
              constructor
              · rintro ⟨m', hm', hsection, -⟩
                obtain rfl := Option.some.inj (hm.symm.trans hm')
                exact hsection
              · intro hsection
                exact ⟨m, hm, hsection, h.inputs line (by simp) m hm hsection⟩
            show readLine _ line = _
            rw [readLine_marker hm, rowsOf_marker hm]
            by_cases hsection : m.1 = .input
            · simp [hinput.mpr hsection, hsection, currentWord, hm]
            · simp [hinput, hsection, currentWord, hm, hrows]
        | none =>
            show readLine _ line = _
            rw [readLine_content hm hrows, currentSection_of_plain h hm, rowsOf_content hm]
            simp [currentWord, hm]

/-! ## Newlines at the ends -/

theorem stripNewlines_idem (text : Text) : stripNewlines (stripNewlines text) = stripNewlines text := by
  have hstrip : ∀ t : Text, stripNewlines t = List.rdropWhile (· = newline) (t.dropWhile (· = newline)) := fun t => rfl
  have hhead : (stripNewlines text).dropWhile (· = newline) = stripNewlines text := by
    rw [List.dropWhile_eq_self_iff]
    intro hpos
    -- a prefix of the text without newlines at its start does not start with one either
    have hprefix : stripNewlines text <+: text.dropWhile (· = newline) := List.rdropWhile_prefix _ _
    have hlt : 0 < (text.dropWhile (· = newline)).length := hpos.trans_le hprefix.length_le
    have hsame : (stripNewlines text).get ⟨0, hpos⟩ = (text.dropWhile (· = newline)).get ⟨0, hlt⟩ := by
      simpa using hprefix.getElem hpos
    have hnot : ¬ decide ((stripNewlines text).get ⟨0, hpos⟩ = newline) = true := by
      rw [hsame]
      exact List.dropWhile_get_zero_not _ _ hlt
    exact hnot
  rw [hstrip (stripNewlines text), hhead, hstrip text, List.rdropWhile_idempotent]

/-! ## The whole -/

theorem bodyLines_ne_nil (body : Option Text) : bodyLines body ≠ [] := List.splitOn_ne_nil _ _

theorem keepsSamples_of_plain {body : Option Text} (h : Plain (bodyLines body)) : KeepsSamples body := by
  have hread := readLines_plain h (bodyLines_ne_nil body)
  refine ⟨_, by rw [sampleRows, hread]; rfl, by simp [rowsOf], fun i row hrow key => ?_⟩
  have hrow : (((List.range (rowNumber (bodyLines body) + 1)).map fun row => linesUnder (bodyLines body) row).map
      fun row key => stripNewlines (joinLines (row key)))[i]? = some row := hrow
  rw [List.map_map, List.getElem?_map, Option.map_eq_some_iff] at hrow
  obtain ⟨i', hi, rfl⟩ := hrow
  obtain ⟨hlt, rfl⟩ := List.getElem?_eq_some_iff.mp hi
  rw [List.getElem_range]
  exact stripNewlines_idem _

theorem readLines_prefix {after : List Text} (h : readLines (before ++ after) = .ok next) :
    ∃ reading, readLines before = .ok reading := by
  rw [readLines, List.foldlM_append] at h
  cases hbefore : readLines before with
  | error e =>
      rw [readLines] at hbefore
      rw [hbefore] at h
      cases h
  | ok reading => exact ⟨reading, rfl⟩

/-- A line is not read under a marker that is not a key. -/
theorem contents_of_ok {after : List Text} (h : readLines (before ++ line :: after) = .ok next)
    (hm : marker? line = none) (hlast : lastMarker before = some m) : ¬ Odd m := by
  have hne : before ≠ [] := by
    rintro rfl
    cases hlast
  obtain ⟨reading, hread⟩ := readLines_prefix (List.append_cons before line after ▸ h)
  obtain ⟨old, hbefore, hline⟩ := readLines_concat_ok hread
  have hold := read_of_ok hne hbefore
  rw [readLine_content hm (hold.rows_ne hne), hold.current, currentWord, hlast, Option.map_some, Option.getD_some] at hline
  cases hkey : keyOf (lower m.2) with
  | none =>
      rw [hkey] at hline
      cases hline
  | some key =>
      obtain ⟨other, -, hmarker⟩ := List.mem_filterMap.mp (List.mem_of_getLast? hlast)
      exact (keyOf_lower_eq hmarker hkey).2

/-- The loop makes as many rows as there are `||input` lines only if they are all spelled with ASCII letters, and none
follows the one that opens the table. -/
theorem plain_count (h : rowsRead lines = rowNumber lines + 1) :
    lines.head?.bind kindOf ≠ some Section.input.word ∧
      ∀ line ∈ lines, ∀ m, marker? line = some m → m.1 = .input → ¬ Odd m := by
  have hsection : ∀ line ∈ lines.filter (kindOf · = some Section.input.word), sectionOf line = some .input := by
    intro line hline
    obtain ⟨m, hm, hinput, -⟩ := kindOf_eq_input.mp (of_decide_eq_true (List.mem_filter.mp hline).2)
    rw [sectionOf, hm, Option.map_some, hinput]
  have hsplit := List.countP_eq_countP_filter_add lines (sectionOf · = some Section.input)
    (kindOf · = some Section.input.word)
  rw [List.countP_eq_length.mpr (fun line hline => decide_eq_true (hsection line hline)),
    ← List.countP_eq_length_filter] at hsplit
  rw [rowsRead, rowNumber, hsplit] at h
  by_cases hfirst : lines.head?.bind kindOf = some Section.input.word
  · rw [if_pos hfirst] at h
    omega
  · rw [if_neg hfirst] at h
    refine ⟨hfirst, fun line hline m hm hinput hodd => ?_⟩
    have hkind : kindOf line ≠ some Section.input.word := by
      intro hkind
      obtain ⟨m', hm', -, hplain⟩ := kindOf_eq_input.mp hkind
      obtain rfl := Option.some.inj (hm.symm.trans hm')
      exact hplain hodd
    have hnone := List.countP_eq_zero.mp (by omega : List.countP (sectionOf · = some Section.input)
      (lines.filter fun line => !decide (kindOf line = some Section.input.word)) = 0) line
      (List.mem_filter.mpr ⟨hline, by simpa using hkind⟩)
    rw [sectionOf, hm, Option.map_some, hinput] at hnone
    exact hnone (decide_eq_true rfl)

theorem plain_of_keepsSamples {body : Option Text} (h : KeepsSamples body) : Plain (bodyLines body) := by
  obtain ⟨rows, hrows, hlength, -⟩ := h
  rw [sampleRows] at hrows
  cases hread : readLines (bodyLines body) with
  | error e =>
      rw [hread] at hrows
      cases hrows
  | ok reading =>
      rw [hread] at hrows
      obtain rfl := Except.ok.inj hrows
      have hcount := (read_of_ok (bodyLines_ne_nil body) hread).length
      rw [List.length_map] at hlength
      obtain ⟨hfirst, hall⟩ := plain_count (hcount.symm.trans hlength)
      refine ⟨hfirst, hall, fun before line after hsplit hm m hlast => ?_⟩
      exact contents_of_ok (hsplit ▸ hread) hm hlast

/-- A table keeps its samples exactly if it is plain. -/
theorem keepsSamples_iff (body : Option Text) : KeepsSamples body ↔ Plain (bodyLines body) :=
  ⟨plain_of_keepsSamples, keepsSamples_of_plain⟩

/-- A table whose first line is another `||input`, which starts no row of its own. -/
theorem not_keepsSamples : ¬ ∀ body, KeepsSamples body := by
  intro h
  have hfirst := (plain_of_keepsSamples (h (some (Text.ofString "||input\n3\n||output\n3")))).first
  exact hfirst (by decide +kernel)

end CpcJudge.Markdown
