import ParamCheck.Fault
import ParamCheck.Nested.Delimiters

/-!
# Marks with several spellings

A delimiter or an escape sequence may be declared as a sequence of texts, each of which is found as
that mark in a flat key. Such a mark takes up as many characters as it has texts, and it cannot be
written: a name in which it is literal has no text. `Marks.split` splits a key by marks of all
kinds, in the way in which `Delimiters.split` does it by texts.
-/

namespace ParamCheck

/-- A mark as it is searched for. -/
inductive Mark where
  | text (cs : List Char)
  /-- Any of several texts, in order. Something that is no text ends the search with a fault. -/
  | anyOf (texts : List (Option (List Char)))

/-- The marks of flat keys. -/
structure Marks where
  /-- The delimiters in the order of the search, and whether each announces an index. -/
  delimiters : List (Mark × Bool)
  escape : Option Mark

namespace Mark

/-- A value as a mark. -/
def ofValue : Value → Mark
  | .str s => text s.toList
  | .tuple items => anyOf (items.map fun item =>
    match item with
    | .str s => some s.toList
    | _ => none)
  | _ => anyOf [none]

/-- The number of characters that a mark takes up. -/
def width : Mark → Nat
  | text cs => cs.length
  | anyOf texts => texts.length

/-- The text after a number of characters, unless it is shorter than that. -/
def pass? (n : Nat) (cs : List Char) : Option (List Char) :=
  if n ≤ cs.length then some (cs.drop n) else none

/-- Whether a text begins with one of several. -/
def anyBegins (rest : Option (List Char)) : List (Option (List Char)) → Except Fault Bool
  | [] => .ok false
  | none :: _ => .error .badType
  | some cs :: more =>
    if rest.any fun rest => (Delimiters.after? cs rest).isSome then .ok true
    else anyBegins rest more

/-- Whether a mark stands at the start of the rest of a key, which may have been overrun. -/
def begins (rest : Option (List Char)) : Mark → Except Fault Bool
  | text cs => anyBegins rest [some cs]
  | anyOf texts => anyBegins rest texts

/-- A token with a mark that is literal. -/
def appendTo (token : Option (List Char)) : Mark → Option (List Char)
  | text cs => token.map (· ++ cs)
  | anyOf _ => none

end Mark

namespace Marks

/-- The first mark of a list that stands at the start of the rest of a key. -/
def first? (rest : Option (List Char)) : List (Mark × Bool) → Except Fault (Option (Mark × Bool))
  | [] => .ok none
  | mark :: more => do
    if ← mark.1.begins rest then return some mark else first? rest more

/-- The segment of a token, which must have a text. -/
def segment (isArray : Bool) (token : Option (List Char)) : Except Fault Segment :=
  match token with
  | some cs => .ok (Delimiters.segment isArray cs)
  | none => .error .badType

/-- Split the rest of a key, given the kind of the segment that is being read and its token. Every
mark takes up some characters, so that the length of the key bounds the number of rounds. -/
def splitFrom (m : Marks) :
    Nat → Bool → Option (List Char) → Option (List Char) → Except Fault (List Segment)
  | 0, _, _, _ => .error .badType
  | _ + 1, isArray, token, none | _ + 1, isArray, token, some [] => do
    return [← segment isArray token]
  | fuel + 1, isArray, token, some (c :: cs) => do
    let rest := some (c :: cs)
    let escape ← first? rest (m.escape.toList.map fun mark => (mark, false))
    match escape with
    | some (escape, _) =>
      let rest := rest.bind (Mark.pass? escape.width)
      match ← first? rest ((escape, false) :: m.delimiters) with
      | some (mark, _) =>
        splitFrom m fuel isArray (mark.appendTo token) (rest.bind (Mark.pass? mark.width))
      | none => splitFrom m fuel isArray (escape.appendTo token) rest
    | none =>
      match ← first? rest m.delimiters with
      | some (mark, kind) =>
        let s ← segment isArray token
        return s :: (← splitFrom m fuel kind (some []) (rest.bind (Mark.pass? mark.width)))
      | none => splitFrom m fuel isArray (token.map (· ++ [c])) (some cs)

/-- The segments of a flat key. -/
def split (m : Marks) (key : List Char) : Except Fault (List Segment) :=
  splitFrom m (key.length + 1) false (some []) (some key)

end Marks

end ParamCheck
