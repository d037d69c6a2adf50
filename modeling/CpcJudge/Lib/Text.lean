import Mathlib.Data.Fin.Basic
import Mathlib.Order.Lattice
import Mathlib.Tactic

/-!
# `Lib.Text` — strings of code points, and the numbers written in them

`strip`, `isdigit` and `int` of a Python string. They disagree about what a digit is: `isdigit` also takes the
superscripts and the circled digits, `int` only the decimals, and no more of them than the interpreter allows. The
tables are those of Unicode 14, the version of Python 3.11.
-/

namespace CpcJudge

/-- A code point. A string may hold half of a surrogate pair. -/
abbrev CodePoint := Fin 0x110000

/-- `str`. -/
abbrev Text := List CodePoint

namespace Text

def ofString (s : String) : Text := s.toList.map fun c => Fin.ofNat 0x110000 c.toNat

/-- `chr`. -/
def chr (n : ℕ) : CodePoint := Fin.ofNat 0x110000 n

/-- `text in texts`. -/
def isIn (text : Text) (texts : List Text) : Bool := texts.any (· = text)

@[simp] theorem isIn_iff {text : Text} {texts : List Text} : text.isIn texts = true ↔ text ∈ texts := by
  simp [isIn]

@[simp] theorem isIn_eq_false {text : Text} {texts : List Text} : text.isIn texts = false ↔ text ∉ texts := by
  rw [← isIn_iff, Bool.not_eq_true]

/-- The code point is in one of the ranges, both ends included. -/
def within (ranges : List (ℕ × ℕ)) (c : CodePoint) : Bool := ranges.any fun range => range.1 ≤ c.val && c.val ≤ range.2

/-- `str.isspace`, which is what `strip` drops. -/
def isSpace : CodePoint → Bool :=
  within [(0x9, 0xd), (0x1c, 0x20), (0x85, 0x85), (0xa0, 0xa0), (0x1680, 0x1680), (0x2000, 0x200a), (0x2028, 0x2029),
    (0x202f, 0x202f), (0x205f, 0x205f), (0x3000, 0x3000)]

/-- The zeros of the scripts that write numbers in base ten. The other nine digits follow each of them. -/
def zeros : List ℕ :=
  [0x30, 0x660, 0x6f0, 0x7c0, 0x966, 0x9e6, 0xa66, 0xae6, 0xb66, 0xbe6, 0xc66, 0xce6, 0xd66, 0xde6, 0xe50, 0xed0, 0xf20,
    0x1040, 0x1090, 0x17e0, 0x1810, 0x1946, 0x19d0, 0x1a80, 0x1a90, 0x1b50, 0x1bb0, 0x1c40, 0x1c50, 0xa620, 0xa8d0,
    0xa900, 0xa9d0, 0xa9f0, 0xaa50, 0xabf0, 0xff10, 0x104a0, 0x10d30, 0x11066, 0x110f0, 0x11136, 0x111d0, 0x112f0,
    0x11450, 0x114d0, 0x11650, 0x116c0, 0x11730, 0x118e0, 0x11950, 0x11c50, 0x11d50, 0x11da0, 0x16a60, 0x16ac0, 0x16b50,
    0x1d7ce, 0x1d7d8, 0x1d7e2, 0x1d7ec, 0x1d7f6, 0x1e140, 0x1e2f0, 0x1e950, 0x1fbf0]

/-- The value of a decimal digit. -/
def decimal? (c : CodePoint) : Option ℕ :=
  (zeros.find? fun first => first ≤ c.val && c.val < first + 10).map fun first => c.val - first

/-- The digits that are not decimal: superscripts, subscripts, circled digits and the like. -/
def isOtherDigit : CodePoint → Bool :=
  within [(0xb2, 0xb3), (0xb9, 0xb9), (0x1369, 0x1371), (0x19da, 0x19da), (0x2070, 0x2070), (0x2074, 0x2079),
    (0x2080, 0x2089), (0x2460, 0x2468), (0x2474, 0x247c), (0x2488, 0x2490), (0x24ea, 0x24ea), (0x24f5, 0x24fd),
    (0x24ff, 0x24ff), (0x2776, 0x277e), (0x2780, 0x2788), (0x278a, 0x2792), (0x10a40, 0x10a43), (0x10e60, 0x10e68),
    (0x11052, 0x1105a), (0x1f100, 0x1f10a)]

/-- `str.strip`. -/
def strip (text : Text) : Text := ((text.dropWhile isSpace).reverse.dropWhile isSpace).reverse

theorem mem_of_mem_strip {text : Text} {c : CodePoint} (h : c ∈ strip text) : c ∈ text := by
  have hrest := (List.dropWhile_sublist _).mem (List.mem_reverse.mp h)
  exact (List.dropWhile_sublist _).mem (List.mem_reverse.mp hrest)

def space : CodePoint := chr 0x20

/-- `text.split()`. -/
def words (text : Text) : List Text := (text.splitOnP isSpace).filter (!·.isEmpty)

/-- What `splitlines` takes for the end of a line. -/
def isLineBreak : CodePoint → Bool := within [(0xa, 0xd), (0x1c, 0x1e), (0x85, 0x85), (0x2028, 0x2029)]

/-- The lines of a text after the code points of `line`, which are in reverse. A line feed right after a carriage
return belongs to it. -/
def splitlinesFrom (line : Text) (afterReturn : Bool) : Text → List Text
  | [] => if line.isEmpty then [] else [line.reverse]
  | c :: rest =>
      if afterReturn && c = chr 0xa then splitlinesFrom line false rest
      else if isLineBreak c then line.reverse :: splitlinesFrom [] (c = chr 0xd) rest
      else splitlinesFrom (c :: line) false rest

/-- `str.splitlines`. -/
def splitlines (text : Text) : List Text := splitlinesFrom [] false text

/-- `str.lower`, where what it gives is compared with ASCII letters: of the others only the Kelvin sign turns into one. -/
def lowerAscii (text : Text) : Text := text.map fun c => if 0x41 ≤ c.val && c.val ≤ 0x5a then chr (c.val + 0x20) else c

/-- `str.isdigit`. -/
def isDigit (text : Text) : Bool := !text.isEmpty && text.all fun c => (decimal? c).isSome || isOtherDigit c

def hyphen : CodePoint := 0x2d
def plus : CodePoint := 0x2b

/-- `text.lstrip('-')`. -/
def lstripHyphens (text : Text) : Text := text.dropWhile (· = hyphen)

/-- The sign a text starts with, and the rest. -/
def splitSign : Text → Bool × Text
  | [] => (false, [])
  | c :: rest => if c = hyphen then (true, rest) else if c = plus then (false, rest) else (false, c :: rest)

/-- `sys.get_int_max_str_digits()`. -/
def maxStrDigits : ℕ := 4300

/-- `int` reads a stripped text without underscores: a sign and some decimals, not too many of them. -/
def isNumeral (text : Text) : Bool :=
  let digits := (splitSign text).2
  !digits.isEmpty && digits.all (fun c => (decimal? c).isSome) && digits.length ≤ maxStrDigits

/-- The number that a numeral stands for. -/
def value (text : Text) : ℤ :=
  let n : ℕ := (splitSign text).2.foldl (fun n c => 10 * n + (decimal? c).getD 0) 0
  if (splitSign text).1 then -n else n

/-- `int`, of a stripped text without underscores; `none` is a `ValueError`. -/
def int? (text : Text) : Option ℤ := if isNumeral text then some (value text) else none

def underscore : CodePoint := 0x5f

/-- Every underscore stands between two decimals. -/
def wellGrouped (text : Text) : Bool :=
  let isDecimal (c : Option CodePoint) : Bool := (c.bind decimal?).isSome
  (List.range text.length).all fun i =>
    text[i]? ≠ some underscore || (0 < i && isDecimal text[i - 1]? && isDecimal text[i + 1]?)

/-- `int`, of any text. -/
def readInt? (text : Text) : Option ℤ :=
  let text := strip text
  if wellGrouped text then int? (text.filter (· ≠ underscore)) else none

/-- The superscript two is a digit for `isdigit`, and not for `int`. -/
example : isDigit (ofString "²") = true ∧ int? (ofString "²") = none := by decide

example : readInt? (ofString " -٣_٤ ") = some (-34) := by decide

end Text
end CpcJudge
