/-!
# Places in a text

A cursor is the rest of a text with the number of characters before it, its line and its column.
Four characters break a line, and only spaces count as blanks between tokens; a tab does not.
-/

namespace ParamCheck.Document

/-- Whether a character breaks a line. -/
def isBreak (c : Char) : Bool :=
  c = '\n' || c.toNat = 0x85 || c.toNat = 0x2028 || c.toNat = 0x2029

/-- What a line break stands for: a newline, unless it divides lines or paragraphs by itself. -/
def breakChar (c : Char) : Char := if c.toNat = 0x85 then '\n' else c

/-- Whether a character is a space or a tab. -/
def isSpaceOrTab (c : Char) : Bool := c = ' ' || c = '\t'

/-- Whether a word that ends before this text is over. -/
def endsWord : List Char → Bool
  | [] => true
  | c :: _ => isSpaceOrTab c || isBreak c

/-- Whether a text begins with a marker between documents, if it begins a line. -/
def atMarker : List Char → Bool
  | '-' :: '-' :: '-' :: rest | '.' :: '.' :: '.' :: rest => endsWord rest
  | _ => false

/-- The rest of a text and where it begins. -/
structure Cursor where
  rest : List Char
  index : Nat := 0
  line : Nat := 0
  column : Nat := 0
  deriving Inhabited

/-- The mark that may stand before a text to tell the order of its bytes. It has no width. -/
def byteOrderMark : Char := Char.ofNat 0xFEFF

namespace Cursor

/-- The cursor after one character. -/
def next (p : Cursor) : Cursor :=
  match p.rest with
  | [] => p
  | c :: rest =>
    if isBreak c then { rest, index := p.index + 1, line := p.line + 1, column := 0 }
    else
      { p with
        rest
        index := p.index + 1
        column := if c = byteOrderMark then p.column else p.column + 1 }

/-- The cursor after a number of characters. -/
def skip : Nat → Cursor → Cursor
  | 0, p => p
  | n + 1, p => skip n p.next

/-- The cursor at a later rest of the same text. -/
def moveTo (p : Cursor) (rest : List Char) : Cursor := p.skip (p.rest.length - rest.length)

/-- Whether the cursor stands at a marker between documents. -/
def isAtMarker (p : Cursor) : Bool := p.column = 0 && atMarker p.rest

end Cursor

/-- The text after a comment, if it begins with one: the rest of its line is left out. -/
def dropComment (cs : List Char) : List Char :=
  match cs with
  | '#' :: rest => rest.dropWhile fun c => !isBreak c
  | cs => cs

/-- The text after spaces, comments and line breaks, and whether there was a line break. A round
takes up a line. -/
def skipGap : Nat → List Char → List Char × Bool
  | 0, cs => (cs, false)
  | fuel + 1, cs =>
    match dropComment (cs.dropWhile (· = ' ')) with
    | [] => ([], false)
    | c :: rest => if isBreak c then ((skipGap fuel rest).1, true) else (c :: rest, false)

end ParamCheck.Document
