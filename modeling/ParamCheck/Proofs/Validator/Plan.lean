import ParamCheck.Proofs.Alias
import ParamCheck.Proofs.Report
import ParamCheck.Proofs.Returns
import ParamCheck.Validator.Run

/-!
# Plans

Planning a run touches nothing but its parameters and its notes (`Validator.plan_eq`). If the
parameters and the fields of the validator stand under different keys, so do the parameters of the
run, and no name is selected twice (`Validator.distinct_plan`, `Validator.nodup_selected`).
-/

namespace ParamCheck

namespace Validator

/-- Names are texts. -/
theorem namesOf_ok {vs : List Value} {names : List String} (h : namesOf vs = .ok names) :
    vs = names.map .str := by
  induction vs generalizing names with
  | nil =>
    obtain rfl := Except.ok.inj h
    rfl
  | cons v rest ih =>
    cases v with
    | str s =>
      rw [namesOf] at h
      obtain ⟨names', hrest, rfl⟩ := map_eq_ok_iff.1 h
      rw [List.map_cons, ← ih hrest]
    | _ => cases h

variable {α : Type}

/-- Renamed parameters stand under different keys. -/
theorem distinct_rename {entries : List (Value × Value)} :
    ∀ {params : Entries α} {sources : Entries Value}
      {r : Entries α × Entries Value × List String}, params.Distinct →
        rename entries params sources = .ok r → r.1.Distinct := by
  induction entries with
  | nil =>
    intro params sources r hparams h
    obtain rfl := Except.ok.inj h
    exact hparams
  | cons e rest ih =>
    intro params sources r hparams h
    obtain ⟨key, target⟩ := e
    cases target with
    | str target =>
      rw [rename] at h
      cases hkey : params.lookup key with
      | none =>
        rw [hkey] at h
        obtain ⟨r', hrest, rfl⟩ := map_eq_ok_iff.1 h
        have hdistinct := ih hparams hrest
        exact hdistinct
      | some v =>
        rw [hkey] at h
        obtain ⟨r', hrest, rfl⟩ := map_eq_ok_iff.1 h
        -- The parameter is taken out before it is set under its new name.
        have hdistinct := ih ((hparams.erase key).insert _ v) hrest
        exact hdistinct
    | _ => cases h

/-- What targets ask for leaves the parameters under different keys. -/
theorem distinct_request {targets : List Value} {params : Entries α}
    {r : Entries α × Entries Value × List String} (hparams : params.Distinct)
    (h : request targets params = .ok r) : r.1.Distinct := by
  unfold request at h
  split at h
  · exact distinct_rename hparams h
  · obtain ⟨texts, -, rfl⟩ := map_eq_ok_iff.1 h
    exact hparams

/-- What holds of every parameter holds of every renamed one. -/
theorem forall_request {P : α → Prop} {targets : List Value} {params : Entries α}
    {r : Entries α × Entries Value × List String} (hparams : ∀ e ∈ params, P e.2)
    (h : request targets params = .ok r) : ∀ e ∈ r.1, P e.2 := by
  have hrename : ∀ {entries : List (Value × Value)} {params : Entries α} {sources : Entries Value}
      {r : Entries α × Entries Value × List String}, (∀ e ∈ params, P e.2) →
        rename entries params sources = .ok r → ∀ e ∈ r.1, P e.2 := by
    intro entries
    induction entries with
    | nil =>
      intro params sources r hparams h
      obtain rfl := Except.ok.inj h
      exact hparams
    | cons e rest ih =>
      intro params sources r hparams h
      obtain ⟨key, target⟩ := e
      cases target with
      | str target =>
        rw [rename] at h
        cases hkey : params.lookup key with
        | none =>
          rw [hkey] at h
          obtain ⟨r', hrest, rfl⟩ := map_eq_ok_iff.1 h
          have hall := ih hparams hrest
          exact hall
        | some v =>
          rw [hkey] at h
          obtain ⟨r', hrest, rfl⟩ := map_eq_ok_iff.1 h
          have hv := Entries.forall_lookup hparams hkey
          have hall := ih (Entries.forall_insert (Entries.forall_erase hparams key) _ hv) hrest
          exact hall
      | _ => cases h
  unfold request at h
  split at h
  · exact hrename hparams h
  · obtain ⟨texts, -, rfl⟩ := map_eq_ok_iff.1 h
    exact hparams

/-- What a run that returns is made of: a plan and the turns of the selected names. -/
theorem validate_ok {hooks : Hooks} {v : Validator} {targets : List Value} {b : Bool}
    (h : (v.validate hooks targets).answer = .ok b) :
    ∃ plan run₀ run,
      Returns (v.resetFields.plan targets) { params := v.params, fields := v.resetFields.fields }
        plan run₀ ∧
      Returns (Run.checkFields hooks v.resetFields plan plan.selected) run₀ () run ∧
      (v.validate hooks targets).validator.params = writeBack v.params run.filtered ∧
      (v.validate hooks targets).validator.fields = run.fields ∧
      (v.validate hooks targets).validator.messages = run.messages := by
  unfold validate at h
  obtain ⟨u, hrun, -⟩ := map_eq_ok_iff.1 h
  have hreturns : Returns (runTargets hooks v.resetFields targets)
      { params := v.resetFields.params, fields := v.resetFields.fields } u _ := Prod.ext hrun rfl
  obtain ⟨plan, run₀, hplan, hturns⟩ := Returns.bind_iff.1 hreturns
  exact ⟨plan, run₀, _, hplan, hturns, rfl, rfl, rfl⟩

/-- A plan and the turns of the selected names make up a run that returns. -/
theorem answer_of_turns {hooks : Hooks} {v : Validator} {targets : List Value} {plan : Plan}
    {run₀ run : Run} {u : Unit}
    (hplan : Returns (v.resetFields.plan targets)
      { params := v.params, fields := v.resetFields.fields } plan run₀)
    (hturns : Returns (Run.checkFields hooks v.resetFields plan plan.selected) run₀ u run) :
    (v.validate hooks targets).answer = .ok run.messages.isEmpty := by
  have hrun : Returns (runTargets hooks v.resetFields targets)
      { params := v.resetFields.params, fields := v.resetFields.fields } u run :=
    Returns.bind_iff.2 ⟨plan, run₀, hplan, hturns⟩
  unfold Returns at hrun
  unfold validate
  dsimp only
  rw [hrun]
  rfl

/-- The parameters of a run, each with the entry of the caller that holds it. -/
def tagged (params : Entries Value) : Entries (Value × Value) :=
  params.map fun (key, value) => (key, (key, value))

/-- What a plan is made of, given what its targets ask for and the names and signs of these and of
the queue. -/
structure Planned (v : Validator) (targets : List Value) (run : Run) (plan : Plan) (run' : Run)
    (params : Entries (Value × Value)) (sources : Entries Value) (requested : List String)
    (parsed : List (Value × Toggle)) : Prop where
  fields_eq : run'.fields = run.fields
  messages_eq : run'.messages = run.messages
  filtered_eq : run'.filtered = run.filtered
  requested_eq : request targets (tagged run.params) = .ok (params, sources, requested)
  parsed_eq : (requested.map Value.str ++ v.queue).mapM Toggle.ofValue = .ok parsed
  params_eq : run'.params = (v.aliases.move params).1.mapValues (·.2)
  sources_eq : plan.sources = sources.overlay (v.aliases.move params).2
  origins_eq : plan.origins = (v.aliases.move params).1.mapValues (·.1)
  toggles_eq : plan.toggles = togglesOf parsed
  hasParams_eq : plan.hasParams = !(v.aliases.move params).1.isEmpty
  selected_eq :
    (if !(parsed.map (·.1)).isEmpty then
        Value.unique (parsed.map (·.1) ++ (v.aliases.move params).2.keys)
      else if !(v.aliases.move params).1.isEmpty then (v.aliases.move params).1.keys
      else v.fields.keys) = plan.selected.map .str

/-- A plan that does not fail is made of these things. -/
theorem plan_eq {v : Validator} {targets : List Value} {run run' : Run} {plan : Plan}
    (h : Returns (v.plan targets) run plan run') :
    ∃ params sources requested parsed,
      Planned v targets run plan run' params sources requested parsed := by
  rw [Validator.plan] at h
  simp only [Returns.bind_iff, Returns.get_iff, Returns.liftM_iff, Returns.mapM_liftM_iff,
    Returns.modify_iff, Returns.pure_iff] at h
  obtain ⟨_, _, ⟨rfl, rfl⟩, ⟨params, sources, requested⟩, _, ⟨hrequest, rfl⟩, parsed, _,
    ⟨hparsed, rfl⟩, _, _, rfl, selected, _, ⟨hselected, rfl⟩, _, _, rfl, rfl, rfl⟩ := h
  exact ⟨params, sources, requested, parsed, rfl, rfl, rfl, hrequest, hparsed, rfl, rfl, rfl, rfl, rfl,
    namesOf_ok hselected⟩

/-- A plan knows whether the run starts with parameters. -/
theorem hasParams_iff {v : Validator} {targets : List Value} {run run' : Run} {plan : Plan}
    (h : Returns (v.plan targets) run plan run') : plan.hasParams = true ↔ run'.params ≠ [] := by
  obtain ⟨params, sources, requested, parsed, hplan⟩ := plan_eq h
  rw [hplan.hasParams_eq, hplan.params_eq]
  simp [Entries.mapValues]

/-- The parameters of a planned run stand under different keys. -/
theorem distinct_plan {v : Validator} {targets : List Value} {run run' : Run} {plan : Plan}
    (hparams : run.params.Distinct) (h : Returns (v.plan targets) run plan run') :
    run'.params.Distinct := by
  obtain ⟨params, sources, requested, parsed, hplan⟩ := plan_eq h
  have htagged : (tagged run.params).Distinct := List.pairwise_map.2 hparams
  obtain ⟨hmoved, -⟩ := v.aliases.distinct_move (distinct_request htagged hplan.requested_eq)
  rw [hplan.params_eq]
  exact hmoved.of_keys (Entries.keys_mapValues _ _)

/-- What holds of every parameter still does when the run is planned. -/
theorem forall_plan {P : Value → Prop} {v : Validator} {targets : List Value} {run run' : Run}
    {plan : Plan} (hparams : ∀ e ∈ run.params, P e.2) (h : Returns (v.plan targets) run plan run') :
    ∀ e ∈ run'.params, P e.2 := by
  obtain ⟨params, sources, requested, parsed, hplan⟩ := plan_eq h
  have htagged : ∀ e ∈ tagged run.params, P e.2.2 := List.forall_mem_map.2 hparams
  have hrequested : ∀ e ∈ params, P e.2.2 :=
    forall_request (P := fun x : Value × Value => P x.2) htagged hplan.requested_eq
  have hmoved : ∀ e ∈ (v.aliases.move params).1, P e.2.2 :=
    v.aliases.forall_move (P := fun x : Value × Value => P x.2) hrequested
  rw [hplan.params_eq]
  exact List.forall_mem_map.2 hmoved

/-- No name is selected twice. -/
theorem nodup_selected {v : Validator} {targets : List Value} {run run' : Run} {plan : Plan}
    (hparams : run.params.Distinct) (hfields : v.fields.Distinct)
    (h : Returns (v.plan targets) run plan run') : plan.selected.Nodup := by
  obtain ⟨params, sources, requested, parsed, hplan⟩ := plan_eq h
  have htagged : (tagged run.params).Distinct := List.pairwise_map.2 hparams
  obtain ⟨hmoved, -⟩ := v.aliases.distinct_move (distinct_request htagged hplan.requested_eq)
  -- Names that are keys of different entries are different.
  have hkeys : ∀ {β : Type} {d : Entries β}, d.Distinct → d.keys = plan.selected.map .str →
      plan.selected.Nodup := by
    intro β d hd heq
    rw [Entries.distinct_iff_keys, heq] at hd
    refine (List.pairwise_map.1 hd).imp fun {s t} hne hst => ?_
    subst hst
    exact hne rfl
  -- The names are those of targets, of parameters or of fields.
  have hselected := hplan.selected_eq
  split at hselected
  · have hunique := Value.pairwise_unique (parsed.map (·.1) ++ (v.aliases.move params).2.keys)
    rw [hselected] at hunique
    refine (List.pairwise_map.1 hunique).imp fun {s t} hsame heq => ?_
    subst heq
    simp [Value.same, Value.scalarKey?] at hsame
  · split at hselected
    · exact hkeys hmoved hselected
    · exact hkeys hfields hselected

/-- The names that a run selects, if its plan does not fail. -/
def selected? (v : Validator) (targets : List Value) : Option (List String) :=
  ((v.resetFields.plan targets).run
    { params := v.params, fields := v.resetFields.fields }).1.toOption.map Plan.selected

/-- The names that a run selects are those of its plan. -/
theorem selected?_eq {v : Validator} {targets : List Value} {plan : Plan} {run₀ : Run}
    (h : Returns (v.resetFields.plan targets)
      { params := v.params, fields := v.resetFields.fields } plan run₀) :
    v.selected? targets = some plan.selected := by
  unfold selected?
  rw [show (v.resetFields.plan targets).run _ = _ from h]
  rfl

/-! ## Plans without a mapping -/

/-- Targets without a mapping rename nothing. -/
theorem request_of_no_mapping {targets : List Value} {params : Entries α}
    {r : Entries α × Entries Value × List String} (hmapping : mappingTarget? targets = none)
    (h : request targets params = .ok r) : r.1 = params ∧ r.2.1 = [] := by
  unfold request at h
  rw [hmapping] at h
  obtain ⟨texts, -, rfl⟩ := map_eq_ok_iff.1 h
  exact ⟨rfl, rfl⟩

/-- The parameters of a run are those of the caller. -/
theorem mapValues_tagged (params : Entries Value) : (tagged params).mapValues (·.2) = params := by
  show List.map _ (List.map _ params) = params
  rw [List.map_map]
  exact List.map_id params

/-- The entry of the caller is found where the parameter is. -/
theorem lookup_tagged (params : Entries Value) (k : Value) :
    ((tagged params).lookup k).map (·.2) = params.lookup k := by
  rw [← Entries.lookup_mapValues, mapValues_tagged]

/-- Which key supplies a field can be told from the entries of the caller. -/
theorem supplier_tagged (params : Entries Value) (name : Value) (f : Field) :
    AliasMap.supplier (tagged params) name f = AliasMap.supplier params name f := by
  have hcontains : ∀ a, (tagged params).contains a = params.contains a := by
    intro a
    unfold Entries.contains
    rw [← lookup_tagged params a, Option.isSome_map]
  unfold AliasMap.supplier
  rw [AliasMap.lastPresent?_congr fun a _ => hcontains a]

/-- If no mapping renames parameters, a declared field has the parameter of the key that supplies
it, and the plan knows that key. -/
theorem plan_supplier {v : Validator} {targets : List Value} {run run' : Run} {plan : Plan}
    (hfits : AliasMap.Fits v.fields v.aliases) (hfields : v.fields.Distinct)
    (hparams : run.params.Distinct) (hmapping : mappingTarget? targets = none)
    (h : Returns (v.plan targets) run plan run') {name : Value} {f : Field}
    (hf : v.fields.lookup name = some f) :
    run'.params.lookup name = run.params.lookup (AliasMap.supplier run.params name f) ∧
      (plan.sources.lookup name).getD name = AliasMap.supplier run.params name f := by
  obtain ⟨params, sources, requested, parsed, hplan⟩ := plan_eq h
  obtain ⟨rfl, rfl⟩ := request_of_no_mapping hmapping hplan.requested_eq
  obtain ⟨hmoved, hmoved'⟩ := AliasMap.lookup_move hfits hfields hf (tagged run.params)
  have htagged : (tagged run.params).Distinct := List.pairwise_map.2 hparams
  obtain ⟨-, hdistinct⟩ := v.aliases.distinct_move htagged
  -- Only moves have put in sources, each under a field of its own.
  have hoverlay : plan.sources = (v.aliases.move (tagged run.params)).2 :=
    hplan.sources_eq.trans (Entries.ofPairs_of_distinct hdistinct)
  rw [supplier_tagged] at hmoved hmoved'
  refine ⟨?_, ?_⟩
  · rw [hplan.params_eq, Entries.lookup_mapValues, hmoved, lookup_tagged]
  · rw [hoverlay, hmoved']

end Validator

end ParamCheck
