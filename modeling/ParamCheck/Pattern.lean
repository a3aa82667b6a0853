import ParamCheck.Text.Digit

/-!
# Patterns

A small language of regular expressions: alternatives of runs of characters, where each run draws
from a set of characters and has a least and a greatest length, between anchors for the start and
the end. There are no groups. `Pattern.parse` reads a source and `Pattern.search` looks for a match
at every place of a text.
-/

namespace ParamCheck

/-- A set of characters. -/
inductive CharSet where
  | one (c : Char)
  /-- The decimal digits of every script. -/
  | digit
  /-- Every character but the newline. -/
  | point
  | ranges (rs : List (Char × Char))
  deriving DecidableEq, Repr

/-- Whether a character is in a set. -/
def CharSet.holds : CharSet → Char → Bool
  | one d, c => c = d
  | digit, c => Text.isDecimal c
  | point, c => c ≠ '\n'
  | ranges rs, c => rs.any fun (a, b) => a ≤ c && c ≤ b

/-- A part of a branch of a pattern. -/
inductive PatternItem where
  | start
  /-- The end of the text, or the place before a newline that ends it. -/
  | finish
  | run (set : CharSet) (least : Nat) (most : Option Nat)
  deriving DecidableEq, Repr

/-- The branches of a pattern, each a sequence of items. -/
abbrev Pattern := List (List PatternItem)

namespace Pattern

/-- The ranges of a class in brackets, up to its closing bracket, and the text after it. -/
def classBody : List Char → Option (List (Char × Char) × List Char)
  | [] => none
  | ']' :: cs => some ([], cs)
  | a :: '-' :: b :: cs =>
    if b = ']' then none else (classBody cs).map fun (rs, rest) => ((a, b) :: rs, rest)
  | a :: cs => (classBody cs).map fun (rs, rest) => ((a, a) :: rs, rest)

/-- The set of characters that a source begins with, and the text after it. -/
def takeSet : List Char → Option (CharSet × List Char)
  | [] => none
  | '\\' :: 'd' :: cs => some (.digit, cs)
  | '\\' :: c :: cs =>
    if Text.isAsciiLetter c || Text.isAsciiDigit c then none else some (.one c, cs)
  | '[' :: cs => (classBody cs).map fun (rs, rest) => (.ranges rs, rest)
  | '.' :: cs => some (.point, cs)
  | c :: cs => if "\\*+?()|^$\x7b".contains c then none else some (.one c, cs)

/-- A number, the text after which is not a digit. -/
def takeNat : List Char → Nat × List Char
  | [] => (0, [])
  | cs@(_ :: _) =>
    let ds := cs.takeWhile Text.isAsciiDigit
    (ds.foldl (fun n c => 10 * n + (c.toNat - 48)) 0, cs.drop ds.length)

/-- The least and greatest number of repetitions that a source begins with, once each if none are
given, and the text after them. -/
def takeBounds : List Char → Option ((Nat × Option Nat) × List Char)
  | '+' :: cs => some ((1, none), cs)
  | '*' :: cs => some ((0, none), cs)
  | '?' :: cs => some ((0, some 1), cs)
  | '\x7b' :: cs =>
    let (least, rest) := takeNat cs
    match rest with
    | '\x7d' :: rest => some ((least, some least), rest)
    | ',' :: '\x7d' :: rest => some ((least, none), rest)
    | ',' :: rest =>
      let (most, rest) := takeNat rest
      match rest with
      | '\x7d' :: rest => some ((least, some most), rest)
      | _ => none
    | _ => none
  | cs => some ((1, some 1), cs)

/-- Put an item in front of the first branch. -/
def consItem (item : PatternItem) : Pattern → Pattern
  | [] => [[item]]
  | branch :: rest => (item :: branch) :: rest

/-- Read a source, with as much fuel as it has characters. -/
def parseWith : Nat → List Char → Option Pattern
  | _, [] => some [[]]
  | 0, _ => none
  | fuel + 1, '|' :: cs => (parseWith fuel cs).map ([] :: ·)
  | fuel + 1, '^' :: cs => (parseWith fuel cs).map (consItem .start)
  | fuel + 1, '$' :: cs => (parseWith fuel cs).map (consItem .finish)
  | fuel + 1, cs => do
    let (set, rest) ← takeSet cs
    let ((least, most), rest) ← takeBounds rest
    (parseWith fuel rest).map (consItem (.run set least most))

/-- Read a source. Every item takes a character, so the fuel suffices. -/
def parse (cs : List Char) : Option Pattern := parseWith cs.length cs

/-- Whether the items match at the start of `cs`, which is the start of the whole text if
`atStart`. -/
def matchesItems : List PatternItem → Bool → List Char → Bool
  | [], _, _ => true
  | .start :: items, atStart, cs => atStart && matchesItems items atStart cs
  | .finish :: items, atStart, cs => (cs = [] || cs = ['\n']) && matchesItems items atStart cs
  | .run set least most :: items, atStart, cs =>
    let available := (cs.takeWhile set.holds).length
    let limit := match most with
      | some n => min n available
      | none => available
    (List.range (limit + 1)).any fun n =>
      least ≤ n && matchesItems items (atStart && n = 0) (cs.drop n)

/-- Whether the items match somewhere in `cs`. -/
def searchItems (items : List PatternItem) : Bool → List Char → Bool
  | atStart, [] => matchesItems items atStart []
  | atStart, c :: cs => matchesItems items atStart (c :: cs) || searchItems items false cs

/-- Whether a branch of the pattern matches somewhere in the text. -/
def search (p : Pattern) (cs : List Char) : Bool := p.any fun items => searchItems items true cs

/-- Whether a source matches somewhere in a text; one outside the language matches nothing. -/
def searchSource (source cs : List Char) : Bool :=
  match parse source with
  | some p => p.search cs
  | none => false

end Pattern

end ParamCheck
