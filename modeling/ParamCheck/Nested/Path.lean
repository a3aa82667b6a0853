import ParamCheck.Fault
import ParamCheck.Nested.Delimiters
import ParamCheck.Number.Reading
import ParamCheck.Number.Shortest
import ParamCheck.Value.Entries

/-!
# Paths into nested data

A path is a sequence of steps, each to a key of a mapping or to an index of a list. `Step.into?` and
`Step.set` follow and set one step in a value. A flat key spells a path: `Delimiters.spell` writes
it and `Segment.step` reads one step of it.
-/

namespace ParamCheck

/-- A step into a mapping or a list. -/
inductive Step where
  | key (name : String)
  | index (n : Nat)
  deriving DecidableEq, Repr, Inhabited

/-- A sequence of steps. -/
abbrev Path := List Step

namespace Step

/-- The value under which a mapping would hold what the step leads to. -/
def asKey : Step → Value
  | key name => .str name
  | index n => .int (Int.ofNat n)

/-- What a step leads to, if it is there and not null. -/
def into? (s : Step) (node : Value) : Option Value :=
  let found := match node, s with
    | .dict entries, s => Entries.lookup entries s.asKey
    | .list items, index n => items[n]?
    | _, _ => none
  match found with
  | some .null => none
  | other => other

/-- The greatest number of items of a list: as many references as can be addressed. -/
def maxItems : Nat := 0x0FFFFFFFFFFFFFFF

/-- The greatest number of items that can be asked for at once. -/
def maxGrowth : Nat := 0x7FFFFFFFFFFFFFFF

/-- Whether a list of some length can be made to have an index. It can if the list that it becomes is
not too long. -/
def checkIndex (length n : Nat) : Except Fault Unit :=
  if n < length then .ok ()
  else if maxGrowth < n + 1 - length then .error .overflow
  else if maxItems < n + 1 then .error .tooLong
  else .ok ()

/-- The list with `v` at an index, after as many nulls as are missing before it. -/
def setIndex {α : Type} (null : α) (items : List α) (n : Nat) (v : α) : List α :=
  (items ++ List.replicate (n + 1 - items.length) null).set n v

/-- Put a value where a step leads. A mapping takes keys and a list takes indexes, which must not be
too large for a list. -/
def set (s : Step) (node v : Value) : Except Fault Value :=
  match node, s with
  | .dict entries, key name => .ok (.dict (Entries.insert entries (.str name) v))
  | .dict _, index _ => .error .indexOnMapping
  | .list items, index n =>
    (checkIndex items.length n).map fun _ => .list (setIndex .null items n v)
  | _, key _ => .error .keyOnList
  | _, index _ => .error .indexOnMapping

/-- Replace what a step leads to, which is there. -/
def replace (s : Step) (node v : Value) : Value :=
  match node, s with
  | .dict entries, s => .dict (Entries.insert entries s.asKey v)
  | .list items, index n => .list (items.set n v)
  | node, _ => node

end Step

/-- The text of a step after the first. -/
def Delimiters.spellStep (d : Delimiters) : Step → List Char
  | .key name => d.hash ++ d.escapeName name.toList
  | .index n => d.array ++ Number.natDigits n

/-- The flat key of a path. -/
def Delimiters.spell (d : Delimiters) : Path → List Char
  | .key name :: path => d.escapeName name.toList ++ path.flatMap d.spellStep
  | path => path.flatMap d.spellStep

/-- The step that a segment stands for. A position has digits, of any script, and no lone digit such
as a superscript; `key` is the flat key that a message names. -/
def Segment.step (key : Value) : Segment → Except Fault Step
  | name token => .ok (.key (String.ofList token))
  | position token =>
    if token.isEmpty || !token.all Text.isDigitLike then
      .error (.badIndex (String.ofList token) key)
    else
      match Number.readInt? token with
      | some n => .ok (.index n.toNat)
      | none => .error .badValue

end ParamCheck
