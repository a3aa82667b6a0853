import ParamCheck.Nested.Linked
import ParamCheck.Nested.Options

/-!
# Shared containers

Nested data that are built from flat parameters share the lists and mappings that the parameters
hold: what is put into such a container is in the parameter as well, and in everything else that
holds the container. `Sharing` links the containers of the parameters and of the values of fields.
`Sharing.build` builds nested data and tells what becomes of the parameters.
-/

namespace ParamCheck

/-- The containers of parameters and fields. -/
structure Sharing where
  /-- The parameters whose containers are known. -/
  params : Entries Linked := []
  /-- The values of fields that parameters held. -/
  fields : Entries Linked := []
  /-- The next number of a container. -/
  next : Nat := 0
  deriving Inhabited

/-- Data that are being built, with everything else that holds their containers. -/
structure Assembly where
  root : Linked
  params : Entries Linked
  fields : Entries Linked
  next : Nat

namespace Assembly

/-- Give a container a new content, wherever it stands. -/
def renew (a : Assembly) (new : Linked) : Assembly :=
  match new.id? with
  | none => a
  | some id =>
    { a with
      root := Linked.renew id new a.root
      params := a.params.mapValues (Linked.renew id new)
      fields := a.fields.mapValues (Linked.renew id new) }

/-- Put `v` where the segments lead from `node`, as `Value.place` does. -/
def place (key : Value) (v : Linked) :
    List Segment → Linked → Assembly → Assembly × Option Fault
  | [], _, a => (a, none)
  | [segment], node, a =>
    match (segment.step key).bind fun s => node.set s v with
    | .error e => (a, some e)
    | .ok node => (a.renew node, none)
  | segment :: next :: rest, node, a =>
    match segment.step key with
    | .error e => (a, some e)
    | .ok s =>
      match node.into? s with
      | some child =>
        if child.isContainer then place key v (next :: rest) child a
        else (a, some (.scalarOnPath key))
      | none =>
        let child := Linked.emptyFor a.next next
        match node.set s child with
        | .error e => (a, some e)
        | .ok node => place key v (next :: rest) child ({ a with next := a.next + 1 }.renew node)

/-- Put the parameter of a key into the data. -/
def put (o : DelimiterOptions) (a : Assembly) (key : Value) : Assembly × Option Fault :=
  match a.params.lookup key, o.split key with
  | none, _ => (a, none)
  | some _, .error e => (a, some e)
  | some v, .ok segments => place key v segments a.root a

/-- Put the parameters of some keys into the data until one cannot be put in. -/
def putAll (o : DelimiterOptions) : List Value → Assembly → Assembly × Option Fault
  | [], a => (a, none)
  | key :: rest, a =>
    match a.put o key with
    | (a, none) => putAll o rest a
    | (a, some e) => (a, some e)

end Assembly

namespace Sharing

/-- Link the containers of one parameter, unless that has been done. -/
def enrollOne (s : Sharing) (key v : Value) : Sharing :=
  if v.isContainer && !s.params.contains key then
    let (v, next) := (Linked.ofValue v).run s.next
    { s with params := s.params.insert key v, next }
  else s

/-- Link the containers of parameters. -/
def enroll (s : Sharing) (params : Entries Value) : Sharing :=
  params.foldl (fun s (key, v) => s.enrollOne key v) s

/-- Parameters with links to the containers that are known. -/
def linked (s : Sharing) (params : Entries Value) : Entries Linked :=
  params.map fun (key, v) => (key, (s.params.lookup key).getD (.leaf v))

/-- The linked parameters that are containers. -/
def containers (params : Entries Linked) : Entries Linked := params.filter (·.2.isContainer)

/-- What building nested data leaves behind. -/
structure Built where
  data : Except Fault Value
  params : Entries Value
  sharing : Sharing

/-- Build the nested data of flat parameters. -/
def build (s : Sharing) (o : DelimiterOptions) (params : Entries Value) : Built :=
  let s := s.enroll params
  let start : Assembly :=
    { root := .dict s.next [], params := s.linked params, fields := s.fields, next := s.next + 1 }
  let (a, fault) := Assembly.putAll o params.keys start
  { data := match fault with
      | some e => .error e
      | none => .ok a.root.plain
    params := a.params.mapValues Linked.plain
    sharing := { params := containers a.params, fields := a.fields, next := a.next } }

/-- The value of a field, which may have changed with a container. -/
def fieldValue (s : Sharing) (name v : Value) : Value :=
  match s.fields.lookup name with
  | some linked => linked.plain
  | none => v

/-- A parameter has been set anew, so that it holds no container that was known. -/
def forget (s : Sharing) (key : Value) : Sharing := { s with params := s.params.erase key }

/-- The values of some fields are the containers of the given parameters. -/
def hold (s : Sharing) (params held : Entries Value) : Sharing :=
  let s := s.enroll params
  { s with
    fields := held.filterMap fun (name, key) => (s.params.lookup key).map fun v => (name, v) }

/-- The containers of parameters that are flattened once more, under their new keys. -/
def flatten (s : Sharing) (o : DelimiterOptions) (params : Entries Value) :
    Except Fault Sharing := do
  let s := s.enroll params
  let pairs ← (Linked.leaves.entryLeaves (s.linked params)).mapM fun (path, leaf) =>
    return (Value.str (← o.spell path), leaf)
  return { params := containers (.ofPairs pairs), next := s.next }

end Sharing

end ParamCheck
