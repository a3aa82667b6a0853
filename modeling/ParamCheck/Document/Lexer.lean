import ParamCheck.Document.Quote
import ParamCheck.Document.Token

/-!
# Dividing a document into tokens

A lexer goes through a text from left to right. It keeps the indents of the block collections that
are open, and for every flow collection that is open, and for the block around them, where a key may
have begun whose colon is yet to come. Such a key must end within its line and within `maxKey`
characters; when its colon comes, the token for a key is put before it. `tokens` gives the tokens of
a text. Directives, anchors, tags and block scalars are not read.
-/

namespace ParamCheck.Document

/-- The greatest number of characters between the start of a key and its colon. -/
def maxKey : Nat := 1024

/-- Where a key may have begun. -/
structure KeyStart where
  /-- The number of tokens before it. -/
  position : Nat
  /-- Nothing but a key can stand here. -/
  isRequired : Bool
  index : Nat
  line : Nat
  column : Nat

/-- Whether a key that has not had its colon can have one no more. -/
def KeyStart.isStale (p : Cursor) (k : KeyStart) : Bool :=
  k.line ≠ p.line || maxKey < p.index - k.index

/-- A text of which some tokens have been read. -/
structure Lexer where
  place : Cursor
  /-- The tokens, the last one first. -/
  read : List Token := []
  count : Nat := 0
  /-- The columns of the block collections that are open, the innermost first. -/
  indents : List Nat := []
  /-- Where keys may have begun: in the innermost flow collection first, in the block last. -/
  keys : List (Option KeyStart) := [none]
  /-- A key may begin at the next token. -/
  keyAllowed : Bool := true

namespace Lexer

/-- Whether a flow collection is open. -/
def inFlow (l : Lexer) : Bool := 1 < l.keys.length

/-- Add a token. -/
def emit (t : Token) (l : Lexer) : Lexer := { l with read := t :: l.read, count := l.count + 1 }

/-- Insert a token after the given number of tokens. -/
def insertAt (position : Nat) (t : Token) (l : Lexer) : Lexer :=
  { l with read := l.read.insertIdx (l.count - position) t, count := l.count + 1 }

/-- Go on by some characters. -/
def skip (n : Nat) (l : Lexer) : Lexer := { l with place := l.place.skip n }

/-- Go on to a later rest of the text. -/
def moveTo (rest : List Char) (l : Lexer) : Lexer := { l with place := l.place.moveTo rest }

/-! ## Keys and indents -/

/-- Drop the keys that are stale, none of which may be required. -/
def dropStale (l : Lexer) : Except Fault Lexer :=
  if l.keys.any (·.any fun k => k.isStale l.place && k.isRequired) then unreadable
  else .ok { l with keys := l.keys.map (·.filter fun k => !k.isStale l.place) }

/-- Drop the innermost key, which must not be required. -/
def dropKey (l : Lexer) : Except Fault Lexer :=
  match l.keys with
  | some k :: keys => if k.isRequired then unreadable else .ok { l with keys := none :: keys }
  | _ => .ok l

/-- Note that a key may begin here, if one may. -/
def saveKey (l : Lexer) : Except Fault Lexer :=
  if !l.keyAllowed then .ok l
  else do
    let l ← l.dropKey
    let start : KeyStart :=
      { position := l.count
        isRequired := !l.inFlow && l.indents.head? = some l.place.column
        index := l.place.index
        line := l.place.line
        column := l.place.column }
    return { l with keys := some start :: l.keys.tail }

/-- Close block collections, the innermost first, as long as their columns satisfy a condition. -/
def close (isClosed : Nat → Bool) (l : Lexer) : Lexer :=
  if l.inFlow then l
  else
    let ends := (l.indents.takeWhile isClosed).map fun _ => Token.blockEnd
    { l with
      read := ends ++ l.read
      count := l.count + ends.length
      indents := l.indents.dropWhile isClosed }

/-- Whether a column is farther to the right than every block collection that is open. -/
def opensBlock (column : Nat) (l : Lexer) : Bool := !l.inFlow && l.indents.head?.all (· < column)

/-- Open a block collection here, unless one is open in this column. -/
def openBlock (t : Token) (l : Lexer) : Lexer :=
  let column := l.place.column
  if l.opensBlock column then emit t { l with indents := column :: l.indents } else l

/-! ## Tokens -/

/-- A bracket that opens a flow collection. -/
def openFlow (t : Token) (l : Lexer) : Except Fault Lexer := do
  let l ← l.saveKey
  return (emit t { l with keys := none :: l.keys, keyAllowed := true }).skip 1

/-- A bracket that closes a flow collection. -/
def closeFlow (t : Token) (l : Lexer) : Except Fault Lexer := do
  let l ← l.dropKey
  if l.inFlow then return (emit t { l with keys := l.keys.tail, keyAllowed := false }).skip 1
  else unreadable

/-- The comma after an entry of a flow collection. -/
def flowEntry (l : Lexer) : Except Fault Lexer := do
  let l ← l.dropKey
  return (emit .flowEntry { l with keyAllowed := true }).skip 1

/-- The hyphen before an entry of a block sequence. -/
def blockEntry (l : Lexer) : Except Fault Lexer := do
  if !l.inFlow && !l.keyAllowed then unreadable
  else
    let l ← (l.openBlock .blockSequenceStart).dropKey
    return (emit .blockEntry { l with keyAllowed := true }).skip 1

/-- The question mark before a key. -/
def keyMark (l : Lexer) : Except Fault Lexer := do
  if !l.inFlow && !l.keyAllowed then unreadable
  else
    let l ← (l.openBlock .blockMappingStart).dropKey
    return (emit .key { l with keyAllowed := !l.inFlow }).skip 1

/-- The colon after a key. -/
def valueMark (l : Lexer) : Except Fault Lexer :=
  match l.keys with
  | some k :: keys =>
    let l := { l with keys := none :: keys, keyAllowed := false }.insertAt k.position .key
    let l :=
      if l.opensBlock k.column then
        { l with indents := k.column :: l.indents }.insertAt k.position .blockMappingStart
      else l
    .ok ((l.emit .value).skip 1)
  | _ =>
    if !l.inFlow && !l.keyAllowed then unreadable
    else
      let l := l.openBlock .blockMappingStart
      .ok ((emit .value { l with keyAllowed := !l.inFlow }).skip 1)

/-- A marker between documents. -/
def marker (t : Token) (l : Lexer) : Except Fault Lexer := do
  let l ← (l.close fun _ => true).dropKey
  return (emit t { l with keyAllowed := false }).skip 3

/-- A scalar in quotes. -/
def quoted (isDouble : Bool) (l : Lexer) : Except Fault Lexer := do
  let l ← l.saveKey
  let inside := l.place.rest.drop 1
  let (text, rest) ← quotedText isDouble (inside.length + 1) inside
  return (emit (.quoted text) { l with keyAllowed := false }).moveTo rest

/-! ## Scalars without quotes -/

/-- Whether a character divides the entries of a flow collection. -/
def isFlowMark (c : Char) : Bool := ",[]\x7b\x7d".contains c

/-- The longest run of a scalar without quotes at the start of a text, and the text after it. -/
def plainRun (flow : Bool) : List Char → List Char × List Char
  | [] => ([], [])
  | c :: cs =>
    let stops :=
      isSpaceOrTab c || isBreak c ||
      (c = ':' && (endsWord cs || (flow && cs.head?.any isFlowMark))) ||
      (flow && (c = '?' || isFlowMark c))
    if stops then ([], c :: cs)
    else
      let (run, rest) := plainRun flow cs
      (c :: run, rest)

/-- The line breaks at the start of a line with the spaces before each, and the text after the
spaces that follow them. The scalar ends at a marker between documents. -/
def plainBreaks : Nat → List Char → Option (List Char) × List Char
  | 0, cs => (none, cs)
  | fuel + 1, cs =>
    if atMarker cs then (none, cs)
    else
      match cs.dropWhile (· = ' ') with
      | [] => (some [], [])
      | c :: rest =>
        if isBreak c then
          let (breaks, rest) := plainBreaks fuel rest
          (breaks.map (breakChar c :: ·), rest)
        else (some [], c :: rest)

/-- What is between two runs of a scalar: what it stands for, unless the scalar ends here, the text
after it, and whether a line was broken. -/
def plainGap (cs : List Char) : Option (List Char) × List Char × Bool :=
  let blanks := cs.takeWhile (· = ' ')
  match cs.dropWhile (· = ' ') with
  | [] => (none, [], false)
  | c :: rest =>
    if isBreak c then
      let (breaks, rest) := plainBreaks (rest.length + 1) rest
      (breaks.map (folded c), rest, true)
    else (if blanks.isEmpty then none else some blanks, c :: rest, false)

/-- A scalar without quotes, the place after it, and whether a line was broken at its end. The
scalar goes on in lines that reach the given column. -/
def plainText (flow : Bool) (column : Nat) : Nat → Cursor → List Char × Cursor × Bool
  | 0, p => ([], p, false)
  | fuel + 1, p =>
    match plainRun flow p.rest with
    | ([], _) => ([], p, false)
    | (run, rest) =>
      let (gap, rest, broken) := plainGap rest
      let after := p.moveTo rest
      match gap with
      | none => (run, after, broken)
      | some gap =>
        if rest.head? = some '#' || (!flow && after.column < column) then (run, after, broken)
        else
          match plainText flow column fuel after with
          | ([], _, _) => (run, after, broken)
          | (text, p, broken) => (run ++ gap ++ text, p, broken)

/-- Whether a scalar without quotes can begin with a character, given the text after it. -/
def startsPlain (flow : Bool) (c : Char) (cs : List Char) : Bool :=
  if c = '-' then !endsWord cs
  else if c = '?' || c = ':' then !flow && !endsWord cs
  else !(isSpaceOrTab c || isBreak c || isFlowMark c || "#&*!|>'\"%@\x60".contains c)

/-- A scalar without quotes. -/
def plain (l : Lexer) : Except Fault Lexer := do
  let l ← l.saveKey
  let column := match l.indents with
    | indent :: _ => indent + 1
    | [] => 0
  let (text, place, broken) := plainText l.inFlow column (l.place.rest.length + 1) l.place
  return emit (.plain text) { l with place, keyAllowed := broken }

/-! ## The whole text -/

/-- Go on to the next token, and close the block collections that end before it. -/
def advance (l : Lexer) : Except Fault Lexer := do
  let (rest, broken) := skipGap (l.place.rest.length + 1) l.place.rest
  let l := l.moveTo rest
  let l ← dropStale { l with keyAllowed := l.keyAllowed || (broken && !l.inFlow) }
  return l.close fun column => l.place.column < column

/-- Read the next token, which begins with the given character. -/
def token (c : Char) (cs : List Char) (l : Lexer) : Except Fault Lexer :=
  if l.place.isAtMarker then l.marker (if c = '-' then .documentStart else .documentEnd)
  else if c = '[' then l.openFlow .flowSequenceStart
  else if c = '\x7b' then l.openFlow .flowMappingStart
  else if c = ']' then l.closeFlow .flowSequenceEnd
  else if c = '\x7d' then l.closeFlow .flowMappingEnd
  else if c = ',' then l.flowEntry
  else if c = '-' && endsWord cs then l.blockEntry
  else if c = '?' && (l.inFlow || endsWord cs) then l.keyMark
  else if c = ':' && (l.inFlow || endsWord cs) then l.valueMark
  else if c.toNat = 39 then l.quoted false
  else if c.toNat = 34 then l.quoted true
  else if startsPlain l.inFlow c cs then l.plain
  else unreadable

/-- The tokens before which no key can be put any more. -/
def settled (l : Lexer) : List Token :=
  let open_ := l.keys.filterMap (·.filter fun k => !k.isStale l.place)
  l.read.reverse.take ((open_.map (·.position)).foldl min l.count)

/-- All tokens. Every round takes up a character. -/
def run : Nat → Lexer → List Token
  | 0, l => l.settled ++ [.broken .unreadableDocument]
  | fuel + 1, l =>
    match l.advance with
    | .error e => l.settled ++ [.broken e]
    | .ok next =>
      match next.place.rest with
      | [] =>
        match (next.close fun _ => true).dropKey with
        | .error e => l.settled ++ [.broken e]
        | .ok next => next.read.reverse
      | c :: cs =>
        match next.token c cs with
        | .error e => l.settled ++ [.broken e]
        | .ok next => run fuel next

end Lexer

/-- The tokens of a text, which may begin with a mark for the order of its bytes. -/
def tokens (cs : List Char) : List Token :=
  let start : Cursor := { rest := cs }
  let start := if cs.head? = some byteOrderMark then start.next else start
  Lexer.run (cs.length + 1) { place := start }

end ParamCheck.Document
