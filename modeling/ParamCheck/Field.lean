import ParamCheck.Fault
import ParamCheck.Value.Entries

/-!
# Fields

A declared field: its resolved directives and what the current run has found out about it. The
directives are read through the functions here, which decide between the spellings of a directive.
-/

namespace ParamCheck

/-- Whether a call overrides the `required` directive of a field. -/
inductive Toggle where
  | declared
  | required
  | optional
  deriving DecidableEq, Repr, Inhabited

namespace Toggle

/-- The sign that stands for a toggle before the name of a field. -/
def sign : Toggle → String
  | declared => ""
  | required => "+"
  | optional => "-"

/-- The name of the field that a target asks for, and its toggle. -/
def parse (target : String) : String × Toggle :=
  match target.toList with
  | '+' :: name => (String.ofList name, required)
  | '-' :: name => (String.ofList name, optional)
  | _ => (target, declared)

/-- The name and the toggle of any target. A sequence has no sign. -/
def ofValue : Value → Except Fault (Value × Toggle)
  | .str s => let (name, toggle) := parse s; .ok (.str name, toggle)
  | .list items => .ok (.list items, declared)
  | .tuple items => .ok (.tuple items, declared)
  | _ => .error .badType

end Toggle

/-- A field with its directives and its state in the current run. -/
structure Field where
  name : Value
  directives : Entries Value
  /-- The value that the last run checked. -/
  value : Value := .null
  toggle : Toggle := .declared
  /-- The messages recorded against the field, in order and each once. -/
  errors : List Value := []
  deriving Inhabited

namespace Field

/-- The value of a directive, null if it is not given. -/
def directive (f : Field) (key : String) : Value := (f.directives.lookup (.str key)).getD .null

/-- The declared label. -/
def label (f : Field) : Value := f.directive "label"

/-- The name that messages use: the label if there is one. -/
def handle (f : Field) : Value := if f.label.truthy then f.label else f.name

/-- The declared message that replaces every other one. -/
def override (f : Field) : Value :=
  match f.directive "error" with
  | .null => f.directive "errors"
  | message => message

/-- Whether the field is declared required. -/
def required (f : Field) : Bool := (f.directive "required").truthy

/-- Whether the field is required in this run. -/
def isRequired (f : Field) : Bool :=
  match f.toggle with
  | .required => true
  | .optional => false
  | .declared => f.required

/-- The other parameter names that supply the field. -/
def aliases (f : Field) : List Value := (f.directive "alias").toList

/-- The filters of the field. -/
def filters (f : Field) : List Value := (f.directive "filters").toList

/-- The callback that has the last word on the field. -/
def validation (f : Field) : Value := f.directive "validation"

/-- The value that takes the place of a missing or empty one. -/
def default (f : Field) : Value :=
  match f.directives.lookup (.str "default") with
  | some v => v
  | none => f.directive "value"

/-- The field at the start of a run. -/
def reset (f : Field) : Field := { name := f.name, directives := f.directives }

end Field

end ParamCheck
