import ParamCheck.Validator

/-!
# Profiles

A profile collects declarations under names and builds validators from them. Each name is declared
once in its section. Profiles refer to their children by their place in a catalogue, so that a child
may be declared further, and may refer back, after it was given to its parent.
-/

namespace ParamCheck

/-- A collection of declarations. -/
structure Profile where
  name : String := ""
  fields : Entries Value := []
  mixins : Entries Value := []
  filters : FilterTable := []
  directives : DirectiveTable := []
  children : Entries Nat := []
  deriving Inhabited

namespace Profile

variable {α : Type}

/-- The name under which something new can be declared in a section. -/
def newName (declared : Entries α) (what : Section) (name : Value) : Except Fault String :=
  match name with
  | .str s =>
    if s = "" then .error (.unnamed what)
    else if declared.contains name then .error (.redefined what s)
    else .ok s
  | _ => .error (.unnamed what)

/-- Declare a field by its directives. -/
def defineField (p : Profile) (name spec : Value) : Except Fault Profile := do
  let s ← newName p.fields .field name
  match spec with
  | .dict _ => return { p with fields := p.fields.insert name spec }
  | _ => throw (.specNotMapping .field s)

/-- Declare a mixin by its directives. -/
def defineMixin (p : Profile) (name spec : Value) : Except Fault Profile := do
  let s ← newName p.mixins .mixin name
  match spec with
  | .dict _ => return { p with mixins := p.mixins.insert name spec }
  | _ => throw (.specNotMapping .mixin s)

/-- Declare a filter by a callback. -/
def defineFilter (p : Profile) (name filter : Value) : Except Fault Profile := do
  let s ← newName p.filters .filter name
  match filter with
  | .callback hook => return { p with filters := p.filters.insert name (.custom hook) }
  | _ => throw (.filterNotCallable s)

/-- Declare a directive, which checks with a callback if one is given. -/
def defineDirective (p : Profile) (name check : Value) (mixin field multi : Bool) :
    Except Fault Profile := do
  let s ← newName p.directives .directive name
  let check ← match check with
    | .null => pure none
    | .callback hook => pure (some (Check.custom hook))
    | _ => throw (.checkNotCallable s)
  return { p with directives := p.directives.insert name { name, mixin, field, multi, check } }

/-- Declare a child by its place in the catalogue. -/
def defineChild (p : Profile) (name : Value) (child : Nat) : Except Fault Profile := do
  let _ ← newName p.children .child name
  return { p with children := p.children.insert name child }

/-- Declare a directive by its descriptor. -/
def addDirective (p : Profile) (name : Value) (d : Descriptor) : Except Fault Profile := do
  let _ ← newName p.directives .directive name
  return { p with directives := p.directives.insert name d }

/-- Declare a filter that another profile has declared. -/
def addFilter (p : Profile) (name : Value) (f : Filter) : Except Fault Profile := do
  let _ ← newName p.filters .filter name
  return { p with filters := p.filters.insert name f }

/-- Declare things one after the other, until one cannot be declared. -/
def defineAll (define : Profile → Value → α → Except Fault Profile) :
    List (Value × α) → Profile → Profile × Option Fault
  | [], p => (p, none)
  | (name, x) :: rest, p =>
    match define p name x with
    | .ok p => defineAll define rest p
    | .error e => (p, some e)

/-- Go on declaring unless something could not be declared. -/
def andThen (define : Profile → Profile × Option Fault) :
    Profile × Option Fault → Profile × Option Fault
  | (p, none) => define p
  | (p, some e) => (p, some e)

/-- Declare everything that another profile declares. What was declared before something could not
be stays declared. -/
def update (p other : Profile) : Profile × Option Fault :=
  (p, none)
    |> andThen (defineAll defineField other.fields)
    |> andThen (defineAll defineMixin other.mixins)
    |> andThen (defineAll addFilter other.filters)
    |> andThen (defineAll addDirective other.directives)
    |> andThen (defineAll defineChild other.children)

/-- The declarations of a profile. -/
def declarations (p : Profile) : Declarations where
  fields := .dict p.fields
  mixins := .dict p.mixins
  filters := p.filters
  directives := p.directives
  children := p.children

/-- A validator with the declarations of a profile. -/
def build (p : Profile) (options : Options) (params : Value) :
    Except Fault Validator × List Note :=
  Validator.create options params p.declarations

end Profile

/-- All profiles, each at its place. -/
abbrev Catalogue := List Profile

/-- A validator of the named child, with copies of the parameters and with the options of its
parent. Where two parameters share a container, so do the copies. -/
def Validator.child (catalogue : Catalogue) (v : Validator) (name : Value) :
    Except Fault Validator × List Note :=
  if !name.isKey then (.error .badType, [])
  else
    match (v.children.lookup name).bind fun (place : Nat) => catalogue[place]? with
    | some profile =>
      let (built, notes) := profile.build v.options (.dict v.params)
      let linked := do
        let child ← built
        let sharing ←
          if Entries.isNested v.params then v.sharing.flatten v.options.delimiters v.params
          else pure {}
        return { child with sharing }
      (linked, notes)
    | none => (.error (.unknownChild name), [])

end ParamCheck
