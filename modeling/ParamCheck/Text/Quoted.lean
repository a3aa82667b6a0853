import ParamCheck.Text.PrintableTable

/-!
# Quoted text

The form in which a text stands inside a printed list or mapping: between quotes, with the
backslash, the quote in use and every character without a printed form written by an escape.
Single quotes are used unless the text has single quotes and no double ones. Bytes are written like
texts of ASCII, with a letter before the quotes.
-/

namespace ParamCheck.Text

/-- The lower-case hexadecimal digit of a number below 16. -/
def hexDigit (n : Nat) : Char := Char.ofNat (if n < 10 then 48 + n else 87 + n)

/-- The lowest `width` hexadecimal digits of a number. -/
def hexDigits : Nat → Nat → List Char
  | 0, _ => []
  | width + 1, n => hexDigits width (n / 16) ++ [hexDigit (n % 16)]

/-- One character inside the given quotes. -/
def quoteChar (mark c : Char) : List Char :=
  if c = mark || c = '\\' then ['\\', c]
  else if c = '\n' then ['\\', 'n']
  else if c = '\r' then ['\\', 'r']
  else if c = '\t' then ['\\', 't']
  else if unprintableRanges.contains c.toNat then
    if c.toNat < 0x100 then '\\' :: 'x' :: hexDigits 2 c.toNat
    else if c.toNat < 0x10000 then '\\' :: 'u' :: hexDigits 4 c.toNat
    else '\\' :: 'U' :: hexDigits 8 c.toNat
  else [c]

/-- The single and the double quotation mark. -/
def singleMark : Char := Char.ofNat 39

@[inherit_doc singleMark]
def doubleMark : Char := Char.ofNat 34

/-- The quotation mark that a text stands between. -/
def markFor (cs : List Char) : Char :=
  if cs.contains singleMark && !cs.contains doubleMark then doubleMark else singleMark

/-- The text between quotes, with its escapes. -/
def quoted (cs : List Char) : List Char :=
  markFor cs :: cs.flatMap (quoteChar (markFor cs)) ++ [markFor cs]

/-- One byte inside the given quotes: as a character, if it stands for one of ASCII. -/
def quoteByte (mark : Char) (b : UInt8) : List Char :=
  if 0x7F < b.toNat then '\\' :: 'x' :: hexDigits 2 b.toNat else quoteChar mark (Char.ofNat b.toNat)

/-- Bytes between quotes. -/
def quotedBytes (bs : List UInt8) : List Char :=
  let mark := markFor (bs.map fun b => Char.ofNat b.toNat)
  'b' :: mark :: bs.flatMap (quoteByte mark) ++ [mark]

end ParamCheck.Text
