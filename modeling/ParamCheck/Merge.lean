import ParamCheck.Directive
import ParamCheck.Journal

/-!
# Resolving declarations

A field gathers directives from its own declaration, from the mixins that it names and from the
fields that it names as sources. Its own directive comes first, then those of the mixins in their
order, then those of the sources in theirs; a directive with several values gathers all of them.
`resolve` does this for all fields: it checks every directive, then applies the mixins of every
field, then the sources of every field, and at last brings `filter` and `filters` together.
-/

namespace ParamCheck

/-- The directives of a field or a mixin. -/
abbrev Directives := Entries Value

namespace Merge

variable (table : DirectiveTable) (policy : Policy)

/-- Whether a directive may stand in a declaration of the given kind. -/
def eligible (owner : Section) (key : Value) : Bool :=
  match Entries.lookup table key with
  | some d => if owner = .mixin then d.mixin else d.field
  | none => false

/-- The directives of a declaration that may stand in it; the others are dealt with as unknown. -/
def acceptEntries (owner : Section) (name : Value) :
    List (Value × Value) → Journaled Directives
  | [] => return []
  | (key, v) :: rest => do
    if eligible table owner key then
      return (key, v) :: (← acceptEntries owner name rest)
    else
      policy.unknown (.unknownDirective key owner name)
      acceptEntries owner name rest

/-- The directives of each declaration of a kind. -/
def acceptAll (owner : Section) : List (Value × Value) → Journaled (Entries Directives)
  | [] => return []
  | (name, .dict spec) :: rest => do
    let directives ← acceptEntries table policy owner name spec
    return (name, directives) :: (← acceptAll owner rest)
  | _ :: _ => throw .badOperation

/-- Add one directive to those of a field: a new one is taken over, and the values of one that may
have several are appended. -/
def contribute (copying : Bool) (target : Directives) (key v : Value) : Directives :=
  match Entries.lookup table key with
  | none => target
  | some d =>
    if copying && !d.mixin then target
    else
      match target.lookup key with
      | none => target.insert key v
      | some w =>
        if d.multi then target.insert key (.list (Value.unique (w.toList ++ v.toList))) else target

/-- Add the directives of a mixin, or of a field that is copied, to those of a field. -/
def merge (copying : Bool) (target source : Directives) : Directives :=
  source.foldl (fun target (key, v) => contribute table copying target key v) target

/-- Set a directive as it was before, if it was there. -/
def restore (own : Directives) (key : String) (target : Directives) : Directives :=
  match own.lookup (.str key) with
  | some v => target.insert (.str key) v
  | none => target

/-- Copy the directives of another field, all but the name and the label of the field itself. -/
def copyField (target source : Directives) : Directives :=
  restore target "label" (restore target "name" (merge table true target source))

/-- The directives of a field after the mixins of a list. -/
def applyMixins (mixins : Entries Directives) (name : Value) :
    List Value → Directives → Journaled Directives
  | [], target => return target
  | mixin :: rest, target => do
    if !mixin.isKey then throw .badType
    match mixins.lookup mixin with
    | none =>
      policy.unknown (.unknownMixin mixin name)
      applyMixins mixins name rest target
    | some source => do
      Journaled.note (.appliedMixin mixin name)
      applyMixins mixins name rest (merge table false target source)

/-- A directive that lists names. -/
def listed (d : Directives) (key : String) : List Value := ((d.lookup (.str key)).getD .null).toList

/-- Every field after its mixins. -/
def mixinPhase (mixins : Entries Directives) :
    List (Value × Directives) → Journaled (Entries Directives)
  | [] => return []
  | (name, d) :: rest => do
    let d ← applyMixins table policy mixins name (listed d "mixin") d
    return (name, d) :: (← mixinPhase mixins rest)

/-- All fields after one of them has copied the sources of a list. -/
def applySources (name : Value) : List Value → Entries Directives → Journaled (Entries Directives)
  | [], all => return all
  | source :: rest, all => do
    if !source.isKey then throw .badType
    match all.lookup source with
    | none =>
      policy.unknown (.unknownSource source name)
      applySources name rest all
    | some d => do
      Journaled.note (.copiedField source name)
      let target := (all.lookup name).getD []
      applySources name rest (all.insert name (copyField table target d))

/-- All fields after those of a list have copied their sources, one field after the other. -/
def sourcePhase : List Value → Entries Directives → Journaled (Entries Directives)
  | [], all => return all
  | name :: rest, all => do
    let sources := listed ((all.lookup name).getD []) "mixin_field"
    sourcePhase rest (← applySources table policy name sources all)

/-- Bring the two spellings of the filter list together. -/
def joinFilters (d : Directives) : Directives :=
  (d.erase (.str "filter")).insert (.str "filters")
    (.list (Value.unique (listed d "filters" ++ listed d "filter")))

/-- The entries of a value that should be a mapping. -/
def entries (v : Value) : Journaled (List (Value × Value)) :=
  match v with
  | .dict es => return es
  | _ => throw .badOperation

/-- Resolve the declarations of fields and mixins. -/
def resolve (fields mixins : Value) : Journaled (Entries Directives × Entries Directives) := do
  let mixins ← acceptAll table policy .mixin (← entries mixins)
  let accepted ← acceptAll table policy .field (← entries fields)
  let mixed ← mixinPhase table policy mixins accepted
  let copied ← sourcePhase table policy mixed.keys mixed
  return (copied.mapValues joinFilters, mixins)

end Merge

end ParamCheck
