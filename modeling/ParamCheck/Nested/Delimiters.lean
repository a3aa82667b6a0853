/-!
# Delimiters in flat keys

A flat key spells a path into nested data: names are divided by the hash delimiter and list indexes
are announced by the array delimiter. Inside a name the escape sequence makes the delimiter or
escape sequence that follows it literal. `escapeName` writes a name so that `split` reads it back as
one piece.
-/

namespace ParamCheck

/-- The three marks of flat keys. An empty escape sequence means that nothing is escaped. -/
structure Delimiters where
  hash : List Char
  array : List Char
  escape : List Char
  deriving DecidableEq, Repr

/-- A piece of a flat key, by the delimiter before it. The first piece counts as a name. -/
inductive Segment where
  | name (token : List Char)
  | position (token : List Char)
  deriving DecidableEq, Repr

namespace Delimiters

/-- The text after the given characters, if it begins with them. -/
def after? : List Char → List Char → Option (List Char)
  | [], cs => some cs
  | _ :: _, [] => none
  | m :: mark, c :: cs => if m = c then after? mark cs else none

/-- The text after a mark that it begins with. An empty mark begins nothing. -/
def strip? (mark cs : List Char) : Option (List Char) := if mark = [] then none else after? mark cs

theorem after?_eq_some_iff {mark cs rest : List Char} :
    after? mark cs = some rest ↔ cs = mark ++ rest := by
  induction mark generalizing cs with
  | nil => simp [after?]
  | cons m mark ih =>
    cases cs with
    | nil => simp [after?]
    | cons c cs =>
      by_cases h : m = c
      · simp [after?, h, ih]
      · simp [after?, h, Ne.symm h]

theorem strip?_eq_some_iff {mark cs rest : List Char} :
    strip? mark cs = some rest ↔ mark ≠ [] ∧ cs = mark ++ rest := by
  by_cases h : mark = [] <;> simp [strip?, h, after?_eq_some_iff]

theorem length_lt_of_strip? {mark cs rest : List Char} (h : strip? mark cs = some rest) :
    rest.length < cs.length := by
  obtain ⟨hm, rfl⟩ := strip?_eq_some_iff.1 h
  have := List.length_pos_iff.2 hm
  simp only [List.length_append]
  omega

/-- The first of the marks that begins a text, and the text after it. -/
def first? : List (List Char) → List Char → Option (List Char × List Char)
  | [], _ => none
  | mark :: marks, cs =>
    match strip? mark cs with
    | some rest => some (mark, rest)
    | none => first? marks cs

theorem length_lt_of_first? {marks : List (List Char)} {cs mark rest : List Char}
    (h : first? marks cs = some (mark, rest)) : rest.length < cs.length := by
  induction marks with
  | nil => simp [first?] at h
  | cons m marks ih =>
    unfold first? at h
    split at h
    · next r hr =>
      cases h
      exact length_lt_of_strip? hr
    · exact ih h

/-- The two delimiters, the longer one first, so that one that begins the other never hides it. -/
def pair (d : Delimiters) : List (List Char) :=
  if d.hash = d.array then [d.hash]
  else if d.hash.length < d.array.length then [d.array, d.hash]
  else [d.hash, d.array]

/-- Everything that an escape sequence makes literal. -/
def marks (d : Delimiters) : List (List Char) := d.escape :: d.pair

/-- Put the escape sequence before every mark of a name, in one pass from left to right. An empty
delimiter stands between any two characters, so that the escape sequence goes there as well. -/
def escapeMarks (d : Delimiters) (cs : List Char) : List Char :=
  match _h : first? d.marks cs with
  | some (mark, rest) => d.escape ++ mark ++ escapeMarks d rest
  | none =>
    let between := if d.pair.contains [] then d.escape else []
    match cs with
    | [] => between
    | c :: cs => between ++ c :: escapeMarks d cs
termination_by cs.length
decreasing_by
  · exact length_lt_of_first? ‹_›
  · simp

/-- A name as it stands in a flat key. -/
def escapeName (d : Delimiters) (cs : List Char) : List Char :=
  if d.escape = [] then cs else escapeMarks d cs

/-- The segment whose token is given. -/
def segment (isArray : Bool) (token : List Char) : Segment :=
  if isArray then .position token else .name token

/-- What an escape sequence with no mark after it stands for: itself, or nothing if there is an
empty delimiter, which is then the mark. -/
def loneEscape (d : Delimiters) : List Char := if d.pair.contains [] then [] else d.escape

/-- Split the rest of a key, given the kind of the segment that is being read and the part of its
token that has been read. -/
def splitFrom (d : Delimiters) (isArray : Bool) (token : List Char) (cs : List Char) :
    List Segment :=
  match _h : strip? d.escape cs with
  | some rest =>
    match _h' : first? d.marks rest with
    | some (mark, rest') => splitFrom d isArray (token ++ mark) rest'
    | none => splitFrom d isArray (token ++ d.loneEscape) rest
  | none =>
    match _h' : first? d.pair cs with
    | some (mark, rest) => segment isArray token :: splitFrom d (mark = d.array) [] rest
    | none =>
      match cs with
      | [] => [segment isArray token]
      | c :: cs => splitFrom d isArray (token ++ [c]) cs
termination_by cs.length
decreasing_by
  · exact Nat.lt_trans (length_lt_of_first? ‹_›) (length_lt_of_strip? ‹_›)
  · exact length_lt_of_strip? ‹_›
  · exact length_lt_of_first? ‹_›
  · simp

/-- The segments of a flat key. -/
def split (d : Delimiters) (key : List Char) : List Segment := splitFrom d false [] key

end Delimiters

end ParamCheck
