import ParamCheck.Pattern

/-!
# Masks

A mask describes a text position by position: `#` is a decimal digit, `X` a letter of ASCII, and any
other character itself. `Mask.source` is the pattern that looks for the mask anywhere in a text.
-/

namespace ParamCheck.Mask

/-- Whether a pattern needs a backslash before a character to mean the character itself. A space
is left alone. -/
def needsEscape (c : Char) : Bool :=
  "()[]\x7b\x7d?*+-|^$\\.&~\t\n\r\x0b\x0c".contains c

/-- The pattern for one character of a mask. -/
def charSource (c : Char) : List Char :=
  if c = '#' then ['\\', 'd']
  else if c = 'X' then "[a-zA-Z]".toList
  else if needsEscape c then ['\\', c]
  else [c]

/-- The source of the pattern that looks for a mask. -/
def source (mask : List Char) : List Char := mask.flatMap charSource

/-- Whether a text has a part that the mask describes. -/
def search (mask text : List Char) : Bool := Pattern.searchSource (source mask) text

end ParamCheck.Mask
