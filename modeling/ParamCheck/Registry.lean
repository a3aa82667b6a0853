import ParamCheck.Directive

/-!
# Registries

A registry holds filters or directives under their names, in the order of registration. The first
registration of a name stands; a later one changes nothing.
-/

namespace ParamCheck.Registry

variable {α : Type}

/-- Register something under a name, unless the name is taken. -/
def register (r : Entries α) (name : String) (x : α) : Entries α :=
  if r.contains (.str name) then r else r.insert (.str name) x

/-- Register every entry of a table in turn. -/
def registerAll (r table : Entries α) : Entries α :=
  table.foldl (fun r (name, x) => register r name.text x) r

/-- The names in the order of registration. -/
def names (r : Entries α) : List String := r.map (·.1.text)

/-- The names in their own order. -/
def sortedNames (r : Entries α) : List String := (names r).mergeSort fun a b => a ≤ b

/-- The filter of a name. -/
def filter (r : FilterTable) (name : String) : Except Fault Filter :=
  match Entries.lookup r (.str name) with
  | some f => .ok f
  | none => .error (.filterNotRegistered name)

/-- The directive of a name. -/
def directive (r : DirectiveTable) (name : String) : Except Fault Descriptor :=
  match Entries.lookup r (.str name) with
  | some d => .ok d
  | none => .error (.directiveNotRegistered name)

/-- Register a check as a directive that may stand in mixins. -/
def decorate (r : DirectiveTable) (name : String) (check : Check) (mixin field multi : Bool) :
    DirectiveTable :=
  register r name { name := .str name, mixin, field, multi, check := some check }

end ParamCheck.Registry
