import CpcJudge.Lib.Text
import CpcJudge.Lib.Txn

/-!
# Compiling the data of a problem

`ProblemDataCompiler.make_init` reads the rows of the table of test cases, one after another, and builds what the judge
is told about the problem. A row is a case, the start of a batch or its end; a batch is open from its start to the next
start or end. The columns that the loop blanks in the rows it saves back are left out.

`json.loads` and the storage are parameters: the first gives `none` where it raises, the second where a file is missing.
-/

namespace CpcJudge.Problems
open Txn

/-! ## Paths -/

def slash : CodePoint := Text.chr 0x2f

def dot : CodePoint := Text.chr 0x2e

def comma : CodePoint := Text.chr 0x2c

/-- `split_path_first`, for a path in a directory: what comes after the first slash. -/
def afterFirst (path : Text) : Option Text :=
  if path.any (· = slash) then some ((path.dropWhile (· ≠ slash)).drop 1) else none

/-- `os.path.basename`. -/
def basename (path : Text) : Text := (path.reverse.takeWhile (· ≠ slash)).reverse

/-- The second part of `os.path.splitext`: a name that starts with dots does not start with an extension. -/
def extension (path : Text) : Text :=
  let name := basename path
  let ending := (name.reverse.takeWhile (· ≠ dot)).reverse
  if name.any (· = dot) && (name.take (name.length - ending.length - 1)).any (· ≠ dot) then dot :: ending else []

/-! ## The rows -/

/-- The `type` of a row: `C`, `S` or `E`. -/
inductive RowType where
  | case
  | batchStart
  | batchEnd
  deriving DecidableEq, Repr

structure ProblemTestCase where
  type : RowType
  inputFile : Text
  outputFile : Text
  generatorArgs : Text
  points : Option ℤ
  isPretest : Bool
  outputPrefix : Option ℤ
  outputLimit : Option ℤ
  checker : Text
  checkerArgs : Text
  batchDependencies : Text
  deriving DecidableEq, Repr

/-- The row of `ProblemData`. A file is its name in the storage, empty without one. -/
structure ProblemData where
  zipfile : Text
  generator : Text
  outputPrefix : Option ℤ
  outputLimit : Option ℤ
  checker : Text
  checkerArgs : Text
  unicode : Bool
  nobigmath : Bool
  interactor : Text
  interactorFeedback : Bool
  deriving DecidableEq

/-- What a compiler is given. -/
structure Compiler (J : Type) where
  data : ProblemData
  files : List Text
  /-- `json.loads`. -/
  loads : Text → Option J
  /-- What a file of the storage holds. -/
  read : Text → Option (List UInt8)

/-! ## What the judge is told -/

inductive Checker (J : Type) where
  | named (name : Text)
  | withArgs (name : Text) (args : J)
  deriving DecidableEq

/-- What a case and a batch are told alike. -/
structure Options (J : Type) where
  generatorArgs : Option (List Text)
  outputLimitLength : Option ℤ
  outputPrefixLength : Option ℤ
  checker : Option (Checker J)
  deriving DecidableEq

structure CaseData (J : Type) where
  input : Option Text
  output : Option Text
  points : Option ℤ
  options : Options J
  deriving DecidableEq

structure BatchData (J : Type) where
  points : ℤ
  batched : List (CaseData J)
  dependencies : List ℤ
  options : Options J
  deriving DecidableEq

inductive Entry (J : Type) where
  | case (data : CaseData J)
  | batch (data : BatchData J)
  deriving DecidableEq

structure Interactive where
  files : List Text
  feedback : Bool
  lang : Option Text
  type : Option Text
  deriving DecidableEq

structure Init (J : Type) where
  archive : Option Text
  generator : Option Text
  pretestTestCases : List (Entry J)
  testCases : List (Entry J)
  outputLimitLength : Option ℤ
  outputPrefixLength : Option ℤ
  checker : Option (Checker J)
  interactive : Option Interactive
  hints : List Text
  deriving DecidableEq

/-! ## Errors -/

inductive ProblemDataError where
  | emptyBatch
  | noPoints (row : ℕ)
  | noInput (row : ℕ) (file : Text)
  | noOutput (row : ℕ) (file : Text)
  | noBatchPoints (row : ℕ)
  | notIntegers (row : ℕ)
  | notPrevious (row : ℕ)
  | notPositive (row : ℕ)
  | endOutside (row : ℕ)
  | zipPath
  | generatorPath
  | interactorPath
  | interactorLanguage
  | sameNames
  | interactorMissing
  deriving DecidableEq, Repr

/-- What `make_init` can raise. -/
inductive Raised where
  | problemData (e : ProblemDataError)
  | valueError
  deriving DecidableEq, Repr

/-! ## The loop -/

/-- The batch that is open. -/
structure OpenBatch (J : Type) where
  isPretest : Bool
  data : BatchData J

/-- An entry, before it is told where it goes. -/
structure Item (J : Type) where
  isPretest : Bool
  entry : Entry J
  deriving DecidableEq

/-- The variables of `make_init`. -/
structure Loop (J : Type) where
  cases : List (Item J)
  batch : Option (OpenBatch J)
  batchCount : ℕ

abbrev InitM (J : Type) := EStateM Raised (Loop J)

namespace Compiler
variable {J : Type} (c : Compiler J)

/-- `make_checker`, of a row with a checker. -/
def makeChecker (checker args : Text) : Option (Checker J) :=
  if args.isEmpty then some (.named checker) else (c.loads args).map (.withArgs checker)

/-- The checker of a row, if it has one. -/
def checkerOf (checker args : Text) : InitM J (Option (Checker J)) :=
  if checker.isEmpty then pure none
  else do
    let made ← orRefuse (c.makeChecker checker args) .valueError
    return some made

def optionsOf (row : ProblemTestCase) : InitM J (Options J) := do
  let checker ← c.checkerOf row.checker row.checkerArgs
  return {
    generatorArgs := if row.generatorArgs.isEmpty then none else some row.generatorArgs.splitlines
    outputLimitLength := row.outputLimit
    outputPrefixLength := row.outputPrefix
    checker }

def present (text : Text) : Option Text := if text.isEmpty then none else some text

/-- `end_batch`. -/
def endBatch (batch : OpenBatch J) : InitM J Unit := do
  refuseIf (batch.data.batched = []) (.problemData .emptyBatch)
  modify fun loop => { loop with cases := loop.cases ++ [⟨batch.isPretest, .batch batch.data⟩] }

/-- The files of a case that no generator makes. -/
def checkFiles (i : ℕ) (row : ProblemTestCase) : InitM J Unit := do
  refuseIf (c.data.generator = [] ∧ row.inputFile.isIn c.files = false) (.problemData (.noInput i row.inputFile))
  refuseIf (c.data.generator = [] ∧ row.outputFile.isIn c.files = false) (.problemData (.noOutput i row.outputFile))

/-- A row that is a case. -/
def addCase (i : ℕ) (row : ProblemTestCase) : InitM J Unit := do
  let loop ← get
  refuseIf (loop.batch.isNone ∧ row.points = none) (.problemData (.noPoints i))
  c.checkFiles i row
  let options ← c.optionsOf row
  let data : CaseData J :=
    { input := present row.inputFile, output := present row.outputFile,
      points := if loop.batch.isSome then none else row.points, options }
  match loop.batch with
  | none => set { loop with cases := loop.cases ++ [Item.mk row.isPretest (.case data)] }
  | some batch =>
      set { loop with
        batch := some { batch with data := { batch.data with batched := batch.data.batched ++ [data] } } }

/-- The numbers in a list separated by commas; `none` is a `ValueError`. -/
def dependenciesOf (row : ProblemTestCase) : Option (List ℤ) :=
  if row.batchDependencies.strip.isEmpty then some []
  else (row.batchDependencies.splitOn comma).mapM Text.readInt?

/-- The loop over the dependencies of a batch, the `count`-th to start. -/
def checkDependencies (i count : ℕ) : List ℤ → InitM J Unit
  | [] => pure ()
  | number :: numbers => do
      refuseIf ((count : ℤ) ≤ number) (.problemData (.notPrevious i))
      refuseIf (number < 1) (.problemData (.notPositive i))
      checkDependencies i count numbers

/-- `if batch: end_batch()`. -/
def endOpen : InitM J Unit := do
  let loop ← get
  match loop.batch with
  | none => pure ()
  | some batch => endBatch batch

/-- A row that starts a batch. -/
def startBatch (i : ℕ) (row : ProblemTestCase) : InitM J Unit := do
  modify fun loop => { loop with batchCount := loop.batchCount + 1 }
  endOpen
  let points ← orRefuse row.points (.problemData (.noBatchPoints i))
  let dependencies ← orRefuse (dependenciesOf row) (.problemData (.notIntegers i))
  let loop ← get
  checkDependencies i loop.batchCount dependencies
  let options ← c.optionsOf row
  let batch : OpenBatch J :=
    { isPretest := row.isPretest, data := { points, batched := [], dependencies, options } }
  modify fun loop => { loop with batch := some batch }

/-- A row that ends a batch. -/
def closeBatch (i : ℕ) : InitM J Unit := do
  let loop ← get
  let batch ← orRefuse loop.batch (.problemData (.endOutside i))
  endBatch batch
  modify fun loop => { loop with batch := none }

/-- A row, with its number from one. -/
def readRow (row : ProblemTestCase × ℕ) : InitM J Unit :=
  match row.1.type with
  | .case => c.addCase row.2 row.1
  | .batchStart => c.startBatch row.2 row.1
  | .batchEnd => closeBatch row.2

/-- The loop over the rows, and the batch that is still open after them. -/
def readRows (rows : List ProblemTestCase) : InitM J Unit := do
  (rows.zipIdx 1).forM c.readRow
  endOpen

/-! ## The interactor -/

/-- `INTERACTOR_LANGUAGES`. -/
def interactorLanguages : List (Text × Option Text) :=
  [(Text.ofString ".cpp", none), (Text.ofString ".cc", none), (Text.ofString ".c", none),
    (Text.ofString ".py", some (Text.ofString "PY3"))]

/-- `TESTLIB_HEADER`. -/
def testlibHeader : Text := Text.ofString "testlib.h"

def ascii (s : String) : List UInt8 := s.toList.map fun c => c.toNat.toUInt8

def skipBlanks (line : List UInt8) : List UInt8 := line.dropWhile fun b => b = 0x20 || b = 0x09

/-- A line that `retestlib_include` matches at its start. -/
def includesTestlib (line : List UInt8) : Bool :=
  let line := (line.dropPrefix? [0xef, 0xbb, 0xbf]).getD line
  let header : Option (List UInt8) := do
    let rest ← (skipBlanks line).dropPrefix? (ascii "#")
    let rest ← (skipBlanks rest).dropPrefix? (ascii "include")
    match skipBlanks rest with
    | [] => none
    | opening :: rest =>
        if opening = 0x3c ∨ opening = 0x22 then rest.dropPrefix? (ascii "testlib.h") else none
  header.any fun rest => rest.head?.any fun closing => closing = 0x3e || closing = 0x22

def interactorUsesTestlib (name : Text) (source : List UInt8) : Bool :=
  let extension := (extension name).lowerAscii
  (extension = Text.ofString ".cpp" || extension = Text.ofString ".cc") && (source.splitOn 0x0a).any includesTestlib

/-- `make_interactive`. -/
def makeInteractive : Except ProblemDataError Interactive :=
  match afterFirst c.data.interactor with
  | none => .error .interactorPath
  | some name =>
      match interactorLanguages.lookup (extension name).lowerAscii with
      | none => .error .interactorLanguage
      | some lang =>
          if c.data.generator ≠ [] ∧ (basename c.data.generator = name ∨ basename c.data.generator = testlibHeader) then
            .error .sameNames
          else
            match c.read c.data.interactor with
            | none => .error .interactorMissing
            | some source =>
                if interactorUsesTestlib name source then
                  .ok ⟨[name, testlibHeader], c.data.interactorFeedback, lang, some (Text.ofString "testlib")⟩
                else .ok ⟨[name], c.data.interactorFeedback, lang, none⟩

/-! ## The init -/

/-- A file of the problem by its path in the directory. -/
def pathOf (file : Text) (e : ProblemDataError) : Except Raised (Option Text) :=
  if file = [] then .ok none
  else
    match afterFirst file with
    | none => .error (.problemData e)
    | some path => .ok (some path)

/-- The checker of the problem. -/
def problemChecker : Except Raised (Option (Checker J)) :=
  if c.data.checker.isEmpty then .ok none
  else
    match c.makeChecker c.data.checker c.data.checkerArgs with
    | none => .error .valueError
    | some made => .ok (some made)

def interactive : Except Raised (Option Interactive) :=
  if c.data.interactor = [] then .ok none
  else
    match c.makeInteractive with
    | .error e => .error (.problemData e)
    | .ok made => .ok (some made)

/-- What `make_init` does after the loop. -/
def assemble (cases : List (Item J)) : Except Raised (Init J) := do
  let archive ← pathOf c.data.zipfile .zipPath
  let generator ← pathOf c.data.generator .generatorPath
  let checker ← c.problemChecker
  let interactive ← c.interactive
  return {
    archive, generator
    pretestTestCases := (cases.filter (·.isPretest)).map (·.entry)
    testCases := (cases.filter (!·.isPretest)).map (·.entry)
    outputLimitLength := c.data.outputLimit
    outputPrefixLength := c.data.outputPrefix
    checker, interactive
    hints := (if c.data.unicode then [Text.ofString "unicode"] else []) ++
      (if c.data.nobigmath then [Text.ofString "nobigmath"] else []) }

def makeInit (rows : List ProblemTestCase) : Except Raised (Init J) :=
  match c.readRows rows ⟨[], none, 0⟩ with
  | .ok _ loop => c.assemble loop.cases
  | .error e _ => .error e

end Compiler

end CpcJudge.Problems
