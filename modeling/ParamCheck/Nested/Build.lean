import ParamCheck.Nested.Path

/-!
# Building nested data

The inverse of flattening: each entry of a flat mapping is put where its key leads, and the mappings
and lists on the way are made as they are needed. `Value.place` also says what becomes of the data
when an entry cannot be put in: the part of the way that was made stays.
-/

namespace ParamCheck

namespace Value

/-- The container that a segment needs: a list for a position, a mapping for a name. -/
def emptyFor : Segment → Value
  | .name _ => dict []
  | .position _ => list []

/-- Put `v` where the segments lead from `node`, and say what went wrong if it could not be done.
A null on the way counts as missing. -/
def place (key : Value) : List Segment → Value → Value → Value × Option Fault
  | [], node, _ => (node, none)
  | [segment], node, v =>
    match segment.step key with
    | .error e => (node, some e)
    | .ok s =>
      match s.set node v with
      | .error e => (node, some e)
      | .ok node => (node, none)
  | segment :: next :: rest, node, v =>
    match segment.step key with
    | .error e => (node, some e)
    | .ok s =>
      match s.into? node with
      | some child =>
        if child.isContainer then
          let (child, e) := place key (next :: rest) child v
          (s.replace node child, e)
        else (node, some (.scalarOnPath key))
      | none =>
        match s.set node (emptyFor next) with
        | .error e => (node, some e)
        | .ok node =>
          let (child, e) := place key (next :: rest) (emptyFor next) v
          (s.replace node child, e)

end Value

end ParamCheck
