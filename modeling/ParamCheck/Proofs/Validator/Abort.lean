import ParamCheck.Proofs.Validator.Filtered

/-!
# Runs that fail

A run can fail while it is planned, in the turn of a name that is no field, or in that of a field whose
filters, checks or callbacks fail. The parameters are restored then as they are after a run that
returns: what filters have made of parameters so far is kept under the keys that supplied them
(`Validator.validate_params_of_error`).
-/

namespace ParamCheck

namespace Validator

variable {hooks : Hooks} {v : Validator}

/-- What a run that fails is made of: its plan fails, or the plan is made and a turn fails. -/
theorem validate_error {targets : List Value} {e : Fault}
    (h : (v.validate hooks targets).answer = .error e) :
    ∃ run, (v.validate hooks targets).validator.params = writeBack v.params run.filtered ∧
      ((v.resetFields.plan targets).run { params := v.params, fields := v.resetFields.fields } =
          (.error e, run) ∨
        ∃ plan run₀,
          Returns (v.resetFields.plan targets) { params := v.params, fields := v.resetFields.fields }
            plan run₀ ∧
          (Run.checkFields hooks v.resetFields plan plan.selected).run run₀ = (.error e, run)) := by
  unfold validate at h
  have hfails := map_eq_error_iff.1 h
  have hrun : (runTargets hooks v.resetFields targets).run
      { params := v.params, fields := v.resetFields.fields } = (.error e, _) := Prod.ext hfails rfl
  exact ⟨_, rfl, run_bind_eq_error_iff.1 hrun⟩

/-- A run that fails leaves the parameters under their keys, in their order. If the plan of the run
fails, no parameter changes. Otherwise the turn of some name fails after all turns before it have
returned, and nothing changes but what filters have made of parameters in these turns. -/
theorem validate_params_of_error {targets : List Value} {e : Fault} (hv : Reachable hooks v)
    (h : (v.validate hooks targets).answer = .error e) :
    (v.selected? targets = none ∧ (v.validate hooks targets).validator.params = v.params) ∨
      ∃ plan run₀ before name after r,
        Returns (v.resetFields.plan targets) { params := v.params, fields := v.resetFields.fields }
          plan run₀ ∧
        Comes hooks v.resetFields plan plan.selected run₀ before name after r ∧
        ((Run.checkName hooks v.resetFields plan name).run r).1 = .error e ∧
        Restored hooks v.resetFields plan (before ++ [name]) run₀ v.params
          (v.validate hooks targets).validator.params := by
  obtain ⟨run, hparams, hplan | ⟨plan, run₀, hplan, hturns⟩⟩ := validate_error h
  · -- Nothing has been filtered when the plan fails.
    have hfiltered : Leaves (v.resetFields.plan targets)
        { params := v.params, fields := v.resetFields.fields } fun run => run.filtered = [] :=
      plan_leaves (P := fun run => run.filtered = []) (fun hu _ _ => hu) rfl v.resetFields targets
    unfold Leaves at hfiltered
    rw [hplan] at hfiltered
    left
    refine ⟨?_, ?_⟩
    · unfold selected?
      rw [hplan]
      rfl
    · rw [hparams, hfiltered]
      rfl
  · obtain ⟨before, name, after, r, hcomes, hfails⟩ := exists_comes_of_error hturns
    obtain ⟨_, _, _, _, hplanned⟩ := plan_eq hplan
    have hnames : ∀ e ∈ v.resetFields.fields, e.2.name = e.1 := hv.consistent.named
    have hkeeps := plan_keeps hplan
    -- The turns end with the one that fails.
    have hlast : (Run.checkFields hooks v.resetFields plan (before ++ [name])).run run₀ =
        (.error e, run) := by
      rw [run_checkFields_append [name] hcomes.returns]
      exact run_bind_eq_error_iff.2 (.inl hfails)
    have hrestored := restored_writeBack hooks plan (before ++ [name]) v.params hnames hkeeps
      hplanned.filtered_eq
    unfold Leaves at hrestored
    rw [hlast] at hrestored
    right
    refine ⟨plan, run₀, before, name, after, r, hplan, hcomes, ?_, ?_⟩
    · rw [hfails]
    · rw [hparams]
      exact hrestored

/-- A validator for a field that trims. -/
def nameOnly : Validator where
  options := {}
  directives := .builtin
  filters := .builtin
  children := []
  mixins := []
  aliases := {}
  warnings := []
  fields := [(.str "name",
    { name := .str "name", directives := [(.str "filters", .list [.str "trim"])] })]
  params := [(.str "name", .str " x "), (.str "other", .str " y ")]

/-- The validator is created from the directives of its field. -/
theorem reachable_nameOnly : Reachable .none nameOnly :=
  @Reachable.create .none {} (.dict nameOnly.params)
    { fields := .dict (nameOnly.fields.mapValues fun f => .dict f.directives) } nameOnly
    (by unfold Value.KeysDiffer; decide) (by unfold Value.KeysDiffer; decide) rfl

/-- A run that fails at a name that is no field keeps the text that it has trimmed, and one that
fails as it is planned keeps nothing. -/
theorem validate_params_nameOnly :
    (∃ plan run₀ before name after r,
      plan.selected = ["name", "nope"] ∧
      Comes .none nameOnly.resetFields plan plan.selected run₀ before name after r ∧
      Restored .none nameOnly.resetFields plan (before ++ [name]) run₀ nameOnly.params
        (nameOnly.validate .none [.str "name", .str "nope"]).validator.params) ∧
      (nameOnly.validate .none [.str "name", .int 1]).validator.params = nameOnly.params := by
  have hselected : nameOnly.selected? [.str "name", .str "nope"] = some ["name", "nope"] := by
    decide +kernel
  have hnone : nameOnly.selected? [.str "name", .int 1] = none := by decide +kernel
  obtain ⟨e, he⟩ : ∃ e, (nameOnly.validate .none [.str "name", .str "nope"]).answer = .error e :=
    error_of_toOption (by decide +kernel)
  obtain ⟨e', he'⟩ : ∃ e, (nameOnly.validate .none [.str "name", .int 1]).answer = .error e :=
    error_of_toOption (by decide +kernel)
  constructor
  · rcases validate_params_of_error reachable_nameOnly he with
      ⟨hplan, -⟩ | ⟨plan, run₀, before, name, after, r, hplan, hcomes, -, hrestored⟩
    · rw [hselected] at hplan
      cases hplan
    · have heq := (selected?_eq hplan).symm.trans hselected
      exact ⟨plan, run₀, before, name, after, r, Option.some.inj heq, hcomes, hrestored⟩
  · rcases validate_params_of_error reachable_nameOnly he' with
      ⟨-, hparams⟩ | ⟨plan, run₀, _, _, _, _, hplan, -⟩
    · exact hparams
    · rw [selected?_eq hplan] at hnone
      cases hnone

/-- Runs that fail leave the parameters as they were. -/
def FailsWithoutEffect : Prop :=
  ∀ {hooks : Hooks} {v : Validator} {targets : List Value} {e : Fault}, Reachable hooks v →
    (v.validate hooks targets).answer = .error e →
      (v.validate hooks targets).validator.params = v.params

/-- A run that fails at a name that is no field can have an effect: a field before it has been trimmed,
and stays so. -/
theorem not_failsWithoutEffect : ¬FailsWithoutEffect := by
  intro h
  obtain ⟨e, he⟩ : ∃ e, (nameOnly.validate .none [.str "name", .str "nope"]).answer = .error e :=
    error_of_toOption (by decide +kernel)
  have hparams := h reachable_nameOnly he
  have htext : ((nameOnly.validate .none [.str "name", .str "nope"]).validator.params.lookup
      (.str "name")).map Value.text = some "x" := by decide +kernel
  rw [hparams] at htext
  exact absurd htext (by decide)

end Validator

end ParamCheck
