import ParamCheck.Validator.Run

/-!
# What a run goes by

Besides its state a run goes by the directives at hand, the filters at hand and the policy, and by its
plan. Of the toggles of a plan only those that it gives to names matter. So validators with the same
rules and plans that agree make the same of the same state (`Run.checkFields_congr`). A plan goes by the
alias map, the queue and the names of the fields (`Validator.plan_congr`).
-/

namespace ParamCheck

/-- Two plans agree in everything but the fields that they select. -/
structure Plan.Agrees (p q : Plan) : Prop where
  toggle (name : String) : (p.toggles.lookup (.str name)).getD .declared =
    (q.toggles.lookup (.str name)).getD .declared
  sources : p.sources = q.sources
  origins : p.origins = q.origins
  hasParams : p.hasParams = q.hasParams

/-- A plan agrees with itself. -/
theorem Plan.Agrees.refl (p : Plan) : p.Agrees p := ⟨fun _ => rfl, rfl, rfl, rfl⟩

/-- Two validators have the same rules: the directives, the filters and the policy. -/
structure Validator.SameRules (v w : Validator) : Prop where
  directives : v.directives = w.directives
  filters : v.filters = w.filters
  policy : v.options.policy = w.options.policy

namespace Run

variable (hooks : Hooks) {v w : Validator} {plan plan' : Plan}

/-- What is supplied goes by the sources and the origins of the plan. -/
theorem withSupplied_congr (hplan : plan.Agrees plan') (run : Run) (name : Value) (s : Supplied) :
    run.withSupplied plan name s = run.withSupplied plan' name s := by
  unfold withSupplied
  rw [hplan.sources, hplan.origins]

/-- The checks of directives go by the directives at hand. -/
theorem checkDirectives_congr (h : v.directives = w.directives) (name value : Value)
    (ds : List (Value × Value)) :
    checkDirectives hooks v name value ds = checkDirectives hooks w name value ds := by
  induction ds with
  | nil => rfl
  | cons d rest ih => rw [checkDirectives, checkDirectives, h, ih]

/-- The turn of a name goes by the rules and the plan. -/
theorem checkName_congr (h : v.SameRules w) (hplan : plan.Agrees plan') (name : String) :
    checkName hooks v plan name = checkName hooks w plan' name := by
  unfold checkName checkField checkValue takeValue supply unknown
  simp only [hplan.toggle, hplan.hasParams, withSupplied_congr hplan,
    checkDirectives_congr hooks h.directives, h.filters, h.policy]

/-- Turns in a row go by the rules and the plan. -/
theorem checkFields_congr (h : v.SameRules w) (hplan : plan.Agrees plan') (names : List String) :
    checkFields hooks v plan names = checkFields hooks w plan' names := by
  induction names with
  | nil => rfl
  | cons name rest ih => rw [checkFields, checkFields, checkName_congr hooks h hplan, ih]

end Run

end ParamCheck
