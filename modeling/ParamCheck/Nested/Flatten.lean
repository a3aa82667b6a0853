import ParamCheck.Nested.Path

/-!
# Flattening

Nested data as one mapping from flat keys to leaves. The leaves of a value are its scalars and its
empty containers, each with the path to it; `Delimiters.flatten` spells every path.
-/

namespace ParamCheck

/-- Whether some value of a mapping is itself a mapping or a list. -/
def Entries.isNested (d : Entries Value) : Bool := d.any fun (_, v) => v.isContainer

namespace Value

/-- The leaves of a value with the paths to them, in order. -/
def leaves : Value → List (Path × Value)
  | dict [] => [([], dict [])]
  | dict (e :: rest) => entryLeaves (e :: rest)
  | list [] => [([], list [])]
  | list (v :: rest) => itemLeaves 0 (v :: rest)
  | v => [([], v)]
where
  /-- The leaves below the entries of a mapping. -/
  entryLeaves : List (Value × Value) → List (Path × Value)
    | [] => []
    | (k, v) :: rest =>
      (leaves v).map (fun (path, leaf) => (.key k.text :: path, leaf)) ++ entryLeaves rest
  /-- The leaves below the items of a list, the first of which has index `n`. -/
  itemLeaves : Nat → List Value → List (Path × Value)
    | _, [] => []
    | n, v :: rest =>
      (leaves v).map (fun (path, leaf) => (.index n :: path, leaf)) ++ itemLeaves (n + 1) rest

/-- Whether the keys on the way to every leaf can be written. -/
def keysWritable : Value → Bool
  | dict entries => entryKeysWritable entries
  | list items => itemKeysWritable items
  | _ => true
where
  /-- The keys of a mapping and those below its entries. -/
  entryKeysWritable : List (Value × Value) → Bool
    | [] => true
    | (k, v) :: rest => k.writable && keysWritable v && entryKeysWritable rest
  /-- The keys below the items of a list. -/
  itemKeysWritable : List Value → Bool
    | [] => true
    | v :: rest => keysWritable v && itemKeysWritable rest

end Value

/-- The flat form of a mapping. -/
def Delimiters.flatten (d : Delimiters) (entries : Entries Value) : Entries Value :=
  .ofPairs ((Value.leaves.entryLeaves entries).map fun (path, leaf) =>
    (.str (String.ofList (d.spell path)), leaf))

end ParamCheck
