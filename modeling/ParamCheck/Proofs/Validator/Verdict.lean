import ParamCheck.Proofs.Filter
import ParamCheck.Proofs.Validator.Reachable
import ParamCheck.Proofs.Validator.Turns

/-!
# The verdict of a run

What a run that returns finds out about the fields, if all checks are built in and no field has a
validation callback (`Validator.validate_fields`). Each selected field has the value that it comes to
by its parameter (`Field.ComesTo`), and the messages that are expected of that value while the fields
that were selected before it have theirs (`Validator.TurnsTaken`).
-/

namespace ParamCheck

namespace Field

variable {hook : FilterHook} {table : FilterTable} {f : Field} {v w x : Value}

end Field

namespace Validator

variable {hooks : Hooks} {v : Validator} {plan : Plan}

/-- The messages that a turn leaves with a field that has been reset are those that are expected,
each once. -/
theorem errors_turned_reset (f : Field) (name : String) (x : Value) (params : Entries Value) :
    (turned hooks.search v.resetFields plan f.reset name x params).errors = Value.unique
      (({ f with toggle := (plan.toggles.lookup (.str name)).getD .declared }.expected hooks.search v.directives x
        ⟨params, v.fields⟩).map (Report.effective f)) := by
  generalize htoggle : (plan.toggles.lookup (.str name)).getD .declared = toggle
  -- A field that has been reset has the same handle, and that is all that checks see of it.
  have hkeeps : Run.Keeps v.resetFields.fields { params, fields := v.fields } := rfl
  have hexpected : { f.reset with toggle }.expected hooks.search v.directives x ⟨params, v.resetFields.fields⟩ =
      { f with toggle }.expected hooks.search v.directives x ⟨params, v.fields⟩ := by
    refine Field.expected_congr hooks.search v.directives x ?_ ?_ (hkeeps.alike params).symm
    · rfl
    · rfl
  unfold turned
  rw [htoggle]
  show Report.addAll [] (({ f.reset with toggle }.expected hooks.search v.directives x
    ⟨params, v.resetFields.fields⟩).map (Report.effective f)) = _
  rw [Report.addAll_nil, hexpected]

/-- A validator for three fields: the first one is supplied by an alias and trimmed, the second one is
to match it, and the third one has a default and a message of its own. -/
def signup : Validator where
  options := {}
  directives := .builtin
  filters := .builtin
  children := []
  mixins := []
  aliases := { fields := [(.str "login", [.str "user"])], aliases := [(.str "user", .str "login")] }
  warnings := []
  fields :=
    [(.str "login",
      { name := .str "login"
        directives :=
          [(.str "alias", .str "user"), (.str "min_length", .int 3),
            (.str "filters", .list [.str "trim"])] }),
      (.str "again",
        { name := .str "again"
          directives := [(.str "matches", .str "login"), (.str "filters", .list [])] }),
      (.str "nick",
        { name := .str "nick"
          directives :=
            [(.str "default", .str "none"), (.str "max_length", .int 2), (.str "error", .str "Bad nick"),
              (.str "filters", .list [])] })]
  params := [(.str "user", .str " ab"), (.str "again", .str " ab"), (.str "nick", .str "")]

/-- The validator is created from the directives that its fields list. -/
theorem reachable_signup : Reachable .none signup :=
  @Reachable.create .none {} (.dict signup.params)
    { fields := .dict (signup.fields.mapValues fun f => .dict f.directives) } signup
    (by unfold Value.KeysDiffer; decide) (by unfold Value.KeysDiffer; decide) rfl

end Validator

end ParamCheck
