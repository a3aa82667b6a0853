import ParamCheck.Field
import ParamCheck.Filter

/-!
# Callbacks

A program can supply filters, checks and validations of its own. What a check or a validation does
is a `Script`: the effects that it has on the run, in order, and then its answer or its failure.
`Hooks` says what every callback does, by name, and where every compiled pattern matches, by its
source and its flags.
-/

namespace ParamCheck

/-- What a check or a validation can do to a run. -/
inductive Effect where
  /-- Record a message against the field. -/
  | record (message : Value)
  /-- Record a message against another field, by the name that it is declared under. -/
  | recordFor (field message : Value)
  /-- Set a parameter for the rest of the run. -/
  | setParam (key v : Value)
  /-- Remove a parameter for the rest of the run. -/
  | dropParam (key : Value)

/-- The effects of a check or a validation and its answer. -/
structure Script where
  effects : List Effect := []
  answer : Except Fault Value

namespace Script

/-- The script of a check that is met. -/
def pass : Script := { answer := .ok (.bool true) }

/-- The script of a check that fails with a message. -/
def fail (message : String) : Script :=
  { effects := [.record (.str message)], answer := .ok (.bool false) }

/-- The script of a check that fails with a message about a field, which its handle begins. -/
def failFor (f : Field) (words : String) : Except Fault Script :=
  return fail ((← f.handle.write) ++ words)

/-- The script of a check that cannot be carried out, if its computation fails. -/
def ofExcept : Except Fault Script → Script
  | .ok s => s
  | .error e => { answer := .error e }

end Script

/-- What a built-in check can see of a run: the parameters and all fields. -/
structure Scene where
  params : Entries Value
  fields : Entries Field

/-- What a callback can see of a run: besides the parameters and all fields the report so far. -/
structure View extends Scene where
  messages : List Value

/-- Whether a compiled pattern, given by its source and its flags, matches somewhere in a text. -/
abbrev PatternSearch := String → Nat → String → Bool

/-- What the callbacks of a program do, and what its compiled patterns find. A callback that is used
in a role that it does not have fails for its type. -/
structure Hooks where
  filter : FilterHook
  search : PatternSearch
  /-- What a check does, given the argument of its directive, the value and the field. -/
  check : String → Value → Value → Field → View → Script
  /-- What a validation does, given its field. -/
  validation : String → Field → View → Script

/-- The hooks of a program without callbacks and compiled patterns. -/
def Hooks.none : Hooks where
  filter _ _ := .error .badType
  search _ _ _ := false
  check _ _ _ _ _ := { answer := .error .badType }
  validation _ _ _ := { answer := .error .badType }

end ParamCheck
