import ParamCheck.Proofs.Merge.Policy
import ParamCheck.Validator

/-!
# Construction under two policies

A validator is created from declarations under a policy on undeclared references. A lenient policy
reports them as warnings, and a strict one refuses the declarations. `Validator.create_strict` tells
from the outcome of the one what the other does: the same validator if there is no warning, and else
a fault with the words of the first warning.
-/

namespace ParamCheck

/-- Declarations of fields and mixins are mappings under names, and what they refer to can be a
key. -/
structure Declarations.WellFormed (d : Declarations) : Prop where
  fields : Merge.Declares (Validator.orEmpty d.fields)
  mixins : Merge.Declares (Validator.orEmpty d.mixins)

namespace Validator

variable {filters : FilterTable}

/-- The check of the filters of a field. -/
theorem foretells_checkFilters (name : Value) (entries : List Value) :
    Foretells fun p => checkFilters p filters name entries := by
  induction entries with
  | nil => exact .pure ()
  | cons entry rest ih =>
    refine .ite ?_ ih
    refine .ite (.bind (.throw .badType) fun _ => ?_) ?_
    all_goals exact .ite (.bind (.unknown rfl) fun _ => ih) ih

/-- The check of the filters of all fields. -/
theorem foretells_checkAllFilters (fields : List Field) :
    Foretells fun p => checkAllFilters p filters fields := by
  induction fields with
  | nil => exact .pure ()
  | cons f rest ih => exact .bind (foretells_checkFilters f.name f.filters) fun _ => ih

/-- Resolving declarations into a validator fails under a strict policy for what it reports first
under the lenient one. -/
theorem foretells_build (o : DelimiterOptions) (params : Value) (d : Declarations) :
    Foretells fun p =>
      (fun v : Validator => { v with options := default }) <$> build ⟨p, o⟩ params d := by
  simp only [build, map_bind, map_pure]
  refine .bind (.lift _) fun params => ?_
  refine .bind (Merge.foretells_resolve _ _) fun r => ?_
  refine .bind (foretells_checkAllFilters _) fun _ => ?_
  refine .bind (.lift _) fun aliases => ?_
  exact .bind (.const fun _ => rfl) fun journal => .pure _

/-- Fields that have just been resolved are in the state before any run. -/
theorem mem_fieldsOf {resolved : Entries Directives} {e : Value × Field}
    (h : e ∈ fieldsOf resolved) :
    (e.1, e.2.directives) ∈ resolved ∧ e.2 = { name := e.1, directives := e.2.directives } := by
  obtain ⟨e', he', rfl⟩ := List.mem_map.1 h
  exact ⟨he', rfl⟩

/-- A validator that is built goes by the options that are given, has found nothing yet and warns of
what was reported. -/
theorem build_returns {options : Options} {params : Value} {d : Declarations} {j k : Journal}
    {v : Validator} (h : Returns (build options params d) j v k) :
    v.options = options ∧ v.warnings = k.messages ∧ v.messages = [] ∧ v.queue = [] ∧
      ∃ resolved, v.fields = fieldsOf resolved := by
  rw [build] at h
  simp only [Returns.bind_iff, Returns.pure_iff, Returns.liftM_iff, Returns.get_iff] at h
  obtain ⟨flat, _, -, r, _, -, _, _, -, aliases, _, -, journal, _, ⟨rfl, rfl⟩, rfl, rfl⟩ := h
  exact ⟨rfl, rfl, rfl, rfl, _, rfl⟩

end Validator

end ParamCheck
