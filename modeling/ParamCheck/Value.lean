import ParamCheck.Number.Binary64
import ParamCheck.Timestamp

/-!
# Values

The values of parameters and declarations: scalars, the four kinds of containers, and the two kinds
of values that only a program can supply, patterns and callbacks. A pattern is held by its source and
its flags and a callback by its name; what they do is given by the hooks of a run.

`Value.key?` is the part of a value by which it is found in a mapping. Numbers are found by what
they are equal to, whatever their type, a NaN is found only by itself, and a list, a set or a mapping
is found by nothing.
-/

namespace ParamCheck

open Number (Binary64)

/-- A value of a parameter, of a directive or of an option. -/
inductive Value where
  | null
  | bool (b : Bool)
  | int (n : Int)
  | float (x : Binary64)
  | str (s : String)
  | bytes (b : List UInt8)
  | timestamp (t : Timestamp)
  | list (items : List Value)
  | tuple (items : List Value)
  /-- A set in the order in which it is gone through. -/
  | set (items : List Value)
  /-- A mapping in the order in which its keys were first set. -/
  | dict (entries : List (Value × Value))
  /-- A compiled pattern, by its source and its flags. -/
  | regex (source : String) (flags : Nat)
  /-- A function supplied by the program, by its name. -/
  | callback (name : String)
  /-- Delimiters that were put together without a check. -/
  | delimiters (hash array escape : Value)
  deriving Inhabited

/-- The part of a value by which a mapping finds it. A tuple is a chain of pairs. -/
inductive Key where
  | null
  | int (n : Int)
  | float (x : Binary64)
  | str (s : String)
  | bytes (b : List UInt8)
  | timestamp (t : Timestamp.Identity)
  | regex (source : String) (flags : Nat)
  | callback (name : String)
  | unit
  | pair (head tail : Key)
  deriving DecidableEq, Repr

namespace Value

/-- The key of a value that is no container; a number that is whole is found as an integer. -/
def scalarKey? : Value → Option Key
  | null => some .null
  | bool b => some (.int (if b then 1 else 0))
  | int n => some (.int n)
  | float x =>
    match x.toInt? with
    | some n => some (.int n)
    | none => some (.float x)
  | str s => some (.str s)
  | bytes b => some (.bytes b)
  | timestamp t => some (.timestamp t.identity)
  | regex source flags => some (.regex source flags)
  | callback name => some (.callback name)
  | _ => none

/-- The key of a value: none for a list, a set, a mapping, or a tuple that holds one. -/
def key? : Value → Option Key
  | tuple items => chain? items
  | v => v.scalarKey?
where
  /-- The keys of the items of a tuple. -/
  chain? : List Value → Option Key
    | [] => some .unit
    | v :: rest =>
      match key? v, chain? rest with
      | some k, some ks => some (.pair k ks)
      | _, _ => none

/-- Whether a value can be a key. -/
def isKey (v : Value) : Bool := v.key?.isSome

/-- Whether two values are the same: numbers across their types, a NaN and itself, lists and tuples
item by item but never with one another, and sets and mappings whatever the order of their items. -/
def same : Value → Value → Bool
  | list xs, list ys => sameItems xs ys
  | tuple xs, tuple ys => sameItems xs ys
  | set xs, set ys => (xs.map key?).isPerm (ys.map key?)
  | dict d, dict e => d.length == e.length && sameEntries d e
  | delimiters h a e, delimiters h' a' e' => same h h' && same a a' && same e e'
  | v, w =>
    match v.scalarKey?, w.scalarKey? with
    | some k, some l => k = l
    | _, _ => false
where
  /-- Item by item. -/
  sameItems : List Value → List Value → Bool
    | [], [] => true
    | v :: vs, w :: ws => same v w && sameItems vs ws
    | _, _ => false
  /-- Each entry of the first mapping is one of the second. -/
  sameEntries : List (Value × Value) → List (Value × Value) → Bool
    | [], _ => true
    | (k, v) :: rest, e => e.any (fun (l, w) => k.key? = l.key? && same v w) && sameEntries rest e

/-- Whether two values are equal outright: they are the same and no NaN, which equals nothing. -/
def equals : Value → Value → Bool
  | float (.nan _), _ => false
  | v, w => same v w

/-- Whether a value counts as true. -/
def truthy : Value → Bool
  | null => false
  | bool b => b
  | int n => n ≠ 0
  | float (.finite _ m _) => m ≠ 0
  | float _ => true
  | str s => s ≠ ""
  | list items => !items.isEmpty
  | bytes b => !b.isEmpty
  | tuple items => !items.isEmpty
  | set items => !items.isEmpty
  | dict entries => !entries.isEmpty
  | timestamp _ | regex .. | callback _ | delimiters .. => true

/-- Whether a value stands for missing data: nothing or the empty text. -/
def isBlank : Value → Bool
  | null => true
  | str s => s = ""
  | _ => false

/-- Whether the checks of an optional field run on a value. -/
def hasValue : Value → Bool
  | bool false => false
  | v => !v.isBlank

/-- Whether a value is a list or a mapping, which a path can descend into. -/
def isContainer : Value → Bool
  | list _ | dict _ => true
  | _ => false

/-- Whether a value is a callback. -/
def isCallback : Value → Bool
  | callback _ => true
  | _ => false

/-- A scalar or sequence as a list: nothing is the empty list, any other scalar a list of one. -/
def toList : Value → List Value
  | null => []
  | list items => items
  | tuple items => items
  | v => [v]

/-- The values without those that are the same as an earlier one. -/
def unique (vs : List Value) : List Value :=
  vs.foldl (fun seen v => if seen.any (same v) then seen else seen ++ [v]) []

end Value

end ParamCheck
