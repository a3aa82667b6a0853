import ParamCheck.Nested.Path

/-!
# Linked values

A container that stands at several places of some data is one container: what is put into it at one
place is in it at all places. A linked value numbers its lists and mappings, and containers of one
number are one container and have the same content. `Linked.renew` replaces a container at all the
places of a value, which is how a change reaches them.
-/

namespace ParamCheck

/-- A value whose lists and mappings are numbered. -/
inductive Linked where
  /-- A scalar, or a tuple or a set, in which no path leads on. -/
  | leaf (v : Value)
  | list (id : Nat) (items : List Linked)
  | dict (id : Nat) (entries : List (Value × Linked))
  deriving Inhabited

namespace Linked

/-- The value without numbers. -/
def plain : Linked → Value
  | leaf v => v
  | list _ items => .list (plainItems items)
  | dict _ entries => .dict (plainEntries entries)
where
  /-- The items of a list without numbers. -/
  plainItems : List Linked → List Value
    | [] => []
    | v :: rest => plain v :: plainItems rest
  /-- The entries of a mapping without numbers. -/
  plainEntries : List (Value × Linked) → List (Value × Value)
    | [] => []
    | (k, v) :: rest => (k, plain v) :: plainEntries rest

/-- The next number. -/
def nextId : StateM Nat Nat := modifyGet fun n => (n, n + 1)

/-- A value whose containers have new numbers. -/
def ofValue : Value → StateM Nat Linked
  | .list items => do
    let id ← nextId
    return list id (← ofItems items)
  | .dict entries => do
    let id ← nextId
    return dict id (← ofEntries entries)
  | v => return leaf v
where
  /-- The items of a list, with new numbers. -/
  ofItems : List Value → StateM Nat (List Linked)
    | [] => return []
    | v :: rest => do
      let v ← ofValue v
      return v :: (← ofItems rest)
  /-- The entries of a mapping, with new numbers. -/
  ofEntries : List (Value × Value) → StateM Nat (List (Value × Linked))
    | [] => return []
    | (k, v) :: rest => do
      let v ← ofValue v
      return (k, v) :: (← ofEntries rest)

/-- The empty container that a segment needs. -/
def emptyFor (id : Nat) : Segment → Linked
  | .name _ => dict id []
  | .position _ => list id []

/-- The number of a container. -/
def id? : Linked → Option Nat
  | leaf _ => none
  | list id _ | dict id _ => some id

/-- Whether a path can lead on. -/
def isContainer (v : Linked) : Bool := v.id?.isSome

/-- What a step leads to, if it is there and not null. -/
def into? (s : Step) (node : Linked) : Option Linked :=
  let found := match node, s with
    | dict _ entries, s => Entries.lookup entries s.asKey
    | list _ items, .index n => items[n]?
    | _, _ => none
  match found with
  | some (leaf .null) => none
  | other => other

/-- Put a value where a step leads, as `Step.set` does. -/
def set (s : Step) (node v : Linked) : Except Fault Linked :=
  match node, s with
  | dict id entries, .key name => .ok (dict id (Entries.insert entries (.str name) v))
  | dict .., .index _ => .error .indexOnMapping
  | list id items, .index n =>
    (Step.checkIndex items.length n).map fun _ => list id (Step.setIndex (leaf .null) items n v)
  | _, .key _ => .error .keyOnList
  | _, .index _ => .error .indexOnMapping

/-- The value with a container, known by its number, replaced wherever it stands. -/
def renew (id : Nat) (new : Linked) : Linked → Linked
  | leaf v => leaf v
  | list i items => if i = id then new else list i (renewItems id new items)
  | dict i entries => if i = id then new else dict i (renewEntries id new entries)
where
  /-- The items of a list with a container replaced. -/
  renewItems (id : Nat) (new : Linked) : List Linked → List Linked
    | [] => []
    | v :: rest => renew id new v :: renewItems id new rest
  /-- The entries of a mapping with a container replaced. -/
  renewEntries (id : Nat) (new : Linked) : List (Value × Linked) → List (Value × Linked)
    | [] => []
    | (k, v) :: rest => (k, renew id new v) :: renewEntries id new rest

/-- The leaves of a value with the paths to them: scalars and empty containers. -/
def leaves : Linked → List (Path × Linked)
  | dict _ (e :: rest) => entryLeaves (e :: rest)
  | list _ (v :: rest) => itemLeaves 0 (v :: rest)
  | v => [([], v)]
where
  /-- The leaves below the entries of a mapping. -/
  entryLeaves : List (Value × Linked) → List (Path × Linked)
    | [] => []
    | (k, v) :: rest =>
      (leaves v).map (fun (path, v) => (.key k.text :: path, v)) ++ entryLeaves rest
  /-- The leaves below the items of a list, the first of which has index `n`. -/
  itemLeaves : Nat → List Linked → List (Path × Linked)
    | _, [] => []
    | n, v :: rest =>
      (leaves v).map (fun (path, v) => (.index n :: path, v)) ++ itemLeaves (n + 1) rest

end Linked

end ParamCheck
