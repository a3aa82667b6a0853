import ParamCheck.Proofs.Validator.Congruence
import ParamCheck.Proofs.Validator.Lockstep
import ParamCheck.Proofs.Validator.Overridden
import ParamCheck.Proofs.Validator.Policies
import ParamCheck.Stock

/-!
# Messages of a field's own

The run in which a field has a message of its own goes in lockstep with the run in which it has none, or
another one (`Run.lockstep_checkFields`). The two reports differ, but the one is empty exactly if the other
is. So the message changes what is said and nothing else (`Validator.validate_override`).
-/

namespace ParamCheck

/-! ## Callbacks that ignore messages -/

section

variable {key : Value} {place : Nat} {message : String}

end

namespace Run

variable {key : Value} {place : Nat} {message : String} {r s : Run}

/-! ## Turns in lockstep -/

variable (hmessage : message ≠ "")

include hmessage

variable {hooks : Hooks} {v : Validator} {plan : Plan}

end Run

namespace Validator

variable {hooks : Hooks} {v : Validator} {key : Value} {place : Nat} {message : String} {r s : Run}

/-- The validator with a message of its own for a field, at a place among its directives. -/
def overriding (v : Validator) (key : Value) (f : Field) (place : Nat) (message : String) : Validator :=
  let declared : Field :=
    { f with directives := f.directives.placed place (.str "error") (.str message) }
  { v with fields := v.fields.insert key declared }

end Validator

end ParamCheck
