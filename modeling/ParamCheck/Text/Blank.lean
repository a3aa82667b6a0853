import ParamCheck.Text.Ranges

/-!
# Blank characters

The 29 characters that count as white space, and the two ways of removing them: `trim` at both
ends, and `words`, the runs of other characters. `isBlank_of_isWhitespace` says that the four
characters that the core library calls white space are among them.
-/

namespace ParamCheck.Text

/-- White space: the bidirectional types of separators and the separator categories of Unicode. -/
def blankRanges : Ranges :=
  [(0x09, 0x0D), (0x1C, 0x20), (0x85, 0x85), (0xA0, 0xA0), (0x1680, 0x1680), (0x2000, 0x200A),
   (0x2028, 0x2029), (0x202F, 0x202F), (0x205F, 0x205F), (0x3000, 0x3000)]

/-- Whether a character is white space. -/
def isBlank (c : Char) : Bool := blankRanges.contains c.toNat

/-- The text without the blank characters at its start. -/
def trimStart (cs : List Char) : List Char := cs.dropWhile isBlank

/-- The text without the blank characters at its end. -/
def trimEnd (cs : List Char) : List Char := (cs.reverse.dropWhile isBlank).reverse

/-- The text without the blank characters at both ends. -/
def trim (cs : List Char) : List Char := trimEnd (trimStart cs)

/-- Every maximal run of blank characters becomes one space. -/
def collapse : List Char → List Char
  | [] => []
  | c :: cs =>
    if isBlank c then
      match cs with
      | [] => [' ']
      | d :: _ => if isBlank d then collapse cs else ' ' :: collapse cs
    else c :: collapse cs

/-- The pieces between blank characters, one more than there are blank characters. -/
def splitBlank (cs : List Char) : List (List Char) := cs.splitOnP isBlank

/-- The maximal runs of characters that are not blank. -/
def words (cs : List Char) : List (List Char) := (splitBlank cs).filter (· ≠ [])

theorem isBlank_of_isWhitespace {c : Char} (h : c.isWhitespace = true) : isBlank c = true := by
  simp only [Char.isWhitespace, Bool.or_eq_true, decide_eq_true_eq] at h
  rcases h with ((rfl | rfl) | rfl) | rfl <;> decide

end ParamCheck.Text
