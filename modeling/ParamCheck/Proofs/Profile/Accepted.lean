import ParamCheck.Proofs.Merge.Values
import ParamCheck.Proofs.Profile.Loaded
import ParamCheck.Proofs.Validator.Child
import ParamCheck.Proofs.Validator.Returning

/-!
# Validators of documents

A profile that documents can make may be accepted: it is resolved without a warning. Then it is resolved under
every policy, with any parameters that are texts (`Profile.Written.build_of_accepted`), and all filters of its
fields are at hand, so that each field has a value to be checked whatever its parameter is
(`Validator.Documented`, `Profile.Written.documented`).
-/

namespace ParamCheck

namespace Validator

/-! ## Filters that are at hand -/

variable {filters : FilterTable} {report : Bool}

/-- Under the strict policy the filters of a field are callbacks or at hand. -/
theorem contains_of_checkFilters {name : Value} {entries : List Value} {s t : Journal} {u : Unit}
    (h : Returns (checkFilters (.strict report) filters name entries) s u t) :
    ∀ entry ∈ entries, entry.isCallback = true ∨ Entries.contains filters entry = true := by
  induction entries generalizing s with
  | nil => exact List.forall_mem_nil _
  | cons entry rest ih =>
    unfold checkFilters at h
    dsimp only at h
    split at h
    · split at h
      · exact absurd h Returns.throw_iff.1
      · split at h
        · -- What is not at hand is a fault.
          obtain ⟨_, _, hunknown, -⟩ := Returns.bind_iff.1 h
          cases congrArg Prod.fst hunknown
        · next hcontains =>
          rw [Bool.not_eq_true', Bool.not_eq_false] at hcontains
          exact List.forall_mem_cons.2 ⟨.inr hcontains, ih h⟩
    · next hcallback =>
      rw [Bool.not_eq_true', Bool.not_eq_false] at hcallback
      exact List.forall_mem_cons.2 ⟨.inl hcallback, ih h⟩

/-- Under the strict policy the filters of all fields are. -/
theorem contains_of_checkAllFilters {fields : List Field} {s t : Journal} {u : Unit}
    (h : Returns (checkAllFilters (.strict report) filters fields) s u t) :
    ∀ f ∈ fields, ∀ entry ∈ f.filters, entry.isCallback = true ∨ Entries.contains filters entry = true := by
  induction fields generalizing s with
  | nil => exact List.forall_mem_nil _
  | cons f rest ih =>
    rw [checkAllFilters] at h
    obtain ⟨_, _, hf, hrest⟩ := Returns.bind_iff.1 h
    exact List.forall_mem_cons.2 ⟨contains_of_checkFilters hf, ih hrest⟩

/-! ## Creation without warnings -/

/-- Declarations that a lenient policy accepts without a warning are resolved alike under a strict one. -/
theorem create_strict_of_no_warnings {o : DelimiterOptions} {params : Value} {d : Declarations} {v : Validator}
    (h : (create ⟨.lenient, o⟩ params d).1 = .ok v) (hwarnings : v.warnings = []) (report : Bool) :
    ∃ w, (create ⟨.strict report, o⟩ params d).1 = .ok w := by
  obtain ⟨j, hlenient⟩ : ∃ j, Returns (build ⟨.lenient, o⟩ params d) {} v j := ⟨_, Prod.ext h rfl⟩
  have hj : j.messages = [] := (build_returns hlenient).2.1.symm.trans hwarnings
  have hagrees := (foretells_build o params d).agrees report {} rfl
  simp only [run_map] at hagrees
  unfold Returns at hlenient
  rw [hlenient] at hagrees
  have hsame := congrArg Prod.fst (hagrees hj)
  change ((build ⟨.strict report, o⟩ params d).run {}).1.map _ = _ at hsame
  obtain ⟨w, hw, -⟩ := map_eq_ok_iff.1 hsame
  exact ⟨w, hw⟩

/-- The directives and filters of a validator are those that are always at hand, and its fields stand under
texts and hold nothing that only a program can supply. -/
structure Documented (v : Validator) : Prop where
  directives : v.directives = .builtin
  filters : v.filters = .builtin
  queue : v.queue = []
  names : Value.AllTexts v.fields.keys
  listed : ∀ e ∈ v.fields, Value.AllTexts e.2.filters
  validation : ∀ e ∈ v.fields, e.2.validation.isCallback = false

/-- Whether a validator is documented does not depend on its parameters and on its policy. -/
theorem Documented.with {v : Validator} (h : v.Documented) (params : Entries Value) (p : Policy) :
    ({ v with params }.under p).Documented :=
  ⟨h.directives, h.filters, h.queue, h.names, h.listed, h.validation⟩

end Validator

/-- Putting data together keeps it. -/
theorem Merge.kept_isData : Kept fun v => v.isData = true where
  null := rfl
  join {v w} hv hw := by
    refine Value.isData_list_iff.2 fun x hx => ?_
    rcases List.mem_append.1 (Value.mem_of_mem_unique hx) with hx | hx
    · exact Value.isData_of_mem_toList hv hx
    · exact Value.isData_of_mem_toList hw hx

namespace Profile

variable {p : Profile} {v : Validator}

/-- What a field is resolved to is data. -/
theorem Written.isData_directive (hp : p.Written) {table : DirectiveTable} {policy : Policy}
    {r : Entries Directives × Entries Directives} {s t : Journal}
    (h : Returns (Merge.resolve table policy (.dict p.fields) (.dict p.mixins)) s r t) :
    ∀ e ∈ Validator.fieldsOf r.1, ∀ key : String, (e.2.directive key).isData = true := by
  have hspecs : ∀ es : Entries Value, (∀ e ∈ es, e.2.isData = true) →
      ∀ e ∈ es, ∀ spec, e.2 = .dict spec → Merge.Each (fun v => v.isData = true) spec := by
    intro es hes e he spec hspec
    exact Value.isData_dict_iff.1 (hspec ▸ hes e he)
  have hresolved := Merge.each_resolve Merge.kept_isData (hspecs _ hp.isData.1) (hspecs _ hp.isData.2) h
  intro e he key
  have heach := hresolved _ (Validator.mem_fieldsOf he).1
  unfold Field.directive
  cases hv : e.2.directives.lookup (.str key) with
  | none => rfl
  | some w => exact heach.of_lookup hv

/-- Fields are resolved under the texts that they are declared under. -/
theorem Written.names_resolved (hp : p.Written) {table : DirectiveTable} {policy : Policy}
    {r : Entries Directives × Entries Directives} {s t : Journal}
    (h : Returns (Merge.resolve table policy (.dict p.fields) (.dict p.mixins)) s r t) :
    Value.AllTexts (Validator.fieldsOf r.1).keys := by
  obtain ⟨es, hes, hkeys⟩ := Merge.keys_resolve h
  obtain rfl := Value.dict.inj hes
  have hfieldKeys : (Validator.fieldsOf r.1).keys = r.1.keys := by
    unfold Validator.fieldsOf Entries.keys
    rw [List.map_map]
    rfl
  rw [hfieldKeys, hkeys hp.sound.distinct_fields]
  exact hp.sound.named_fields

/-- A validator of a profile that documents can make is documented if the strict policy accepts the profile. -/
theorem Written.documented (hp : p.Written) {report : Bool} {o : DelimiterOptions} {params : Value}
    (h : (p.build ⟨.strict report, o⟩ params).1 = .ok v) : v.Documented := by
  unfold build at h
  rw [hp.declarations_eq] at h
  obtain ⟨j, hbuild⟩ : ∃ j, Returns (Validator.build ⟨.strict report, o⟩ params
      { fields := .dict p.fields, mixins := .dict p.mixins }) {} v j := ⟨_, Prod.ext h rfl⟩
  rw [Validator.build] at hbuild
  simp only [Returns.bind_iff, Returns.pure_iff, Returns.liftM_iff, Returns.get_iff,
    Validator.orEmpty_dict] at hbuild
  obtain ⟨flat, _, ⟨-, rfl⟩, r, _, hresolve, _, _, hfilters, aliases, _, ⟨-, rfl⟩, _, _, ⟨rfl, rfl⟩,
    rfl, -⟩ := hbuild
  have hdata := hp.isData_directive hresolve
  refine ⟨rfl, rfl, rfl, hp.names_resolved hresolve, fun e he x hx => ?_, fun e he => ?_⟩
  · have hcallback : x.isCallback = false :=
      Value.isCallback_of_isData (Value.isData_of_mem_toList (hdata e he "filters") hx)
    obtain hx | hx := Validator.contains_of_checkAllFilters hfilters e.2 (List.mem_map_of_mem he) x hx
    · rw [hcallback] at hx
      cases hx
    · -- What is at hand has a text for its name.
      obtain ⟨m, hm, hkey⟩ := Entries.contains_iff.1 hx
      obtain ⟨_, hl, rfl⟩ := List.mem_map.1 hm
      obtain ⟨g, -, rfl⟩ := List.mem_map.1 hl
      exact ⟨g.name, Value.eq_str_of_key? hkey.symm⟩
  · exact Value.isCallback_of_isData (hdata e he "validation")

/-- A profile that the strict policy accepts is resolved under every policy, with any parameters under different
names that are no containers, and its validator is documented. -/
theorem Written.build_of_strict (hp : p.Written) {report : Bool} {o : DelimiterOptions}
    (h : (p.build ⟨.strict report, o⟩ .null).1 = .ok v) (policy : Policy) {params : Entries Value}
    (hdistinct : params.Distinct) (hscalars : ∀ e ∈ params, e.2.isContainer = false) :
    ∃ w, (p.build ⟨policy, o⟩ (.dict params)).1 = .ok w ∧ w.params = params ∧
      w.options.policy = policy ∧ w.Documented ∧ w.Consistent := by
  have hflat := Validator.flatParams_of_scalars (o := o) hscalars
  have hcreate :=
    Validator.create_under (Validator.create_of_flatParams hflat (Validator.create_params h)) policy
  have hparams : (Value.dict params).KeysDiffer := hdistinct
  have hfields : (Value.dict p.fields).KeysDiffer := hp.sound.distinct_fields
  exact ⟨_, hcreate, rfl, rfl, (hp.documented h).with params policy,
    Validator.consistent_create hparams hfields hcreate⟩

end Profile

end ParamCheck
