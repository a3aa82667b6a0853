import ParamCheck.Document.Cursor
import ParamCheck.Document.Json

/-!
# Texts in quotes

A text in double quotes has escapes, and in a text in single quotes a quote is written twice. A line
break inside a text is folded into a space, together with the blanks around it; further line breaks
are kept. `quotedText` reads such a text up to its closing quote.
-/

namespace ParamCheck.Document

/-- The characters that short escapes stand for. -/
def shortEscapes : List (Char × Nat) :=
  [('0', 0), ('a', 7), ('b', 8), ('t', 9), ('\t', 9), ('n', 10), ('v', 11), ('f', 12), ('r', 13),
    ('e', 27), (' ', 32), ('/', 47), ('\\', 92), ('N', 0x85), ('_', 0xA0), ('L', 0x2028),
    ('P', 0x2029)]

/-- The number of hexadecimal digits of a long escape. -/
def longEscapes : List (Char × Nat) := [('x', 2), ('u', 4), ('U', 8)]

/-- The escape that follows a backslash, and the text after it. A number beyond the characters is at
fault by its value. -/
def blockEscape : List Char → Except Fault (Char × List Char)
  | [] => unreadable
  | c :: cs =>
    if c.toNat = 34 then .ok (c, cs)
    else
      match shortEscapes.lookup c, longEscapes.lookup c with
      | some n, _ => .ok (Char.ofNat n, cs)
      | none, some width =>
        match takeHex width 0 cs with
        | some (n, rest) => if 0x10FFFF < n then .error .badValue else .ok (escaped n rest)
        | none => unreadable
      | none, none => unreadable

/-- The line breaks at the start of a line, with the blanks before each, and the text after the
blanks that follow them. There must be no marker between documents. -/
def quotedBreaks : Nat → List Char → Except Fault (List Char × List Char)
  | 0, _ => unreadable
  | fuel + 1, cs =>
    if atMarker cs then unreadable
    else
      match cs.dropWhile isSpaceOrTab with
      | [] => .ok ([], [])
      | c :: rest =>
        if isBreak c then
          (quotedBreaks fuel rest).map fun (breaks, rest) => (breakChar c :: breaks, rest)
        else .ok ([], c :: rest)

/-- What a line break and the line breaks after it are folded into. -/
def folded (c : Char) (breaks : List Char) : List Char :=
  if breakChar c ≠ '\n' then c :: breaks else if breaks.isEmpty then [' '] else breaks

/-- The text up to the closing quote, and the text after it. Every round takes up a character. -/
def quotedText (isDouble : Bool) : Nat → List Char → Except Fault (List Char × List Char)
  | 0, _ | _, [] => unreadable
  | fuel + 1, c :: cs => do
    let then_ := fun (piece rest : List Char) =>
      (quotedText isDouble fuel rest).map fun (text, rest) => (piece ++ text, rest)
    if c.toNat = (if isDouble then 34 else 39) then
      match isDouble, cs with
      | false, d :: rest => if c = d then then_ [c] rest else return ([], cs)
      | _, _ => return ([], cs)
    else if isDouble && c = '\\' then
      match cs with
      | d :: rest =>
        if isBreak d then
          let (breaks, rest) ← quotedBreaks (rest.length + 1) rest
          then_ breaks rest
        else
          let (e, rest) ← blockEscape cs
          then_ [e] rest
      | [] => unreadable
    else if isSpaceOrTab c || isBreak c then
      let blanks := (c :: cs).takeWhile isSpaceOrTab
      match (c :: cs).dropWhile isSpaceOrTab with
      | [] => unreadable
      | d :: rest =>
        if isBreak d then
          let (breaks, rest) ← quotedBreaks (rest.length + 1) rest
          then_ (folded d breaks) rest
        else then_ blanks (d :: rest)
    else then_ [c] cs

end ParamCheck.Document
