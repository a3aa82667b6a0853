import ParamCheck.Proofs.Alias
import ParamCheck.Proofs.Merge.Precedence
import ParamCheck.Proofs.Nested.Assembly
import ParamCheck.Proofs.Validator.History

/-!
# The validators that can be had

A validator is created from declarations, or it is the child of another one, and then operations
change it (`Validator.Reachable`). At every time its parameters and its fields stand under
different keys, each field has the name that it is declared under, and the alias map is the one that
is built of the fields (`Validator.Consistent`, `Validator.Reachable.consistent`).
-/

namespace ParamCheck

/-- The keys of a mapping are pairwise different, as they are in every mapping that there can be. -/
def Value.KeysDiffer : Value → Prop
  | .dict entries => Entries.Distinct entries
  | _ => True

/-- Parameters that are flattened stand under different keys. -/
theorem DelimiterOptions.distinct_flatten {o : DelimiterOptions} {v : Value} {flat : Entries Value}
    (h : o.flatten v = .ok flat) : flat.Distinct := by
  cases v with
  | dict entries =>
    unfold DelimiterOptions.flatten at h
    dsimp only at h
    split at h
    · cases h
    · cases hd : o.delimiters? with
      | some d =>
        rw [hd] at h
        obtain rfl := Except.ok.inj h
        exact Entries.distinct_ofPairs _
      | none =>
        rw [hd] at h
        obtain ⟨pairs, -, hpairs⟩ := bind_eq_ok_iff.1 h
        obtain rfl := Except.ok.inj hpairs
        exact Entries.distinct_ofPairs _
  | _ => cases h

/-- The alias map of fields goes by their declarations. -/
theorem AliasMap.build_mapValues_reset (fields : Entries Field) :
    build (fields.mapValues Field.reset) = build fields := by
  have hcontains : ∀ k, (fields.mapValues Field.reset).contains k = fields.contains k := by
    intro k
    unfold Entries.contains
    rw [Entries.lookup_mapValues, Option.isSome_map]
  -- Of the fields only the names matter when aliases are added to them.
  have hadd : ∀ (name : Value) (names : List Value) (known : Entries Value),
      addAliases (fields.mapValues Field.reset) name names known =
        addAliases fields name names known := by
    intro name names
    induction names with
    | nil => exact fun _ => rfl
    | cons a rest ih =>
      intro known
      unfold addAliases
      rw [hcontains, ih]
  have hfields : ∀ (es : Entries Field) (m : AliasMap),
      addFields (fields.mapValues Field.reset) (es.mapValues Field.reset) m =
        addFields fields es m := by
    intro es
    induction es with
    | nil => exact fun _ => rfl
    | cons e rest ih =>
      intro m
      obtain ⟨name, f⟩ := e
      have haliases : f.reset.aliases = f.aliases := rfl
      show addFields _ ((name, f.reset) :: Entries.mapValues Field.reset rest) m = _
      rw [addFields, addFields, haliases, hadd]
      congr 1
      funext known
      exact ih _
  exact hfields fields {}

namespace Validator

/-- The parameters and the fields of a validator and its alias map fit together. -/
structure Consistent (v : Validator) : Prop where
  params_distinct : v.params.Distinct
  fields_distinct : v.fields.Distinct
  names : ∀ e ∈ v.fields, e.2.name = e.1
  aliases : AliasMap.build v.fields = .ok v.aliases

/-- A validator is consistent if it has been declared like one that is. -/
theorem Consistent.of_declared {v w : Validator} (h : v.Consistent) (hparams : w.params.Distinct)
    (hdeclared : w.declared = v.declared) : w.Consistent := by
  have hfields : w.declared.fields = v.declared.fields := by rw [hdeclared]
  have haliases : w.declared.aliases = v.declared.aliases := by rw [hdeclared]
  change w.fields.mapValues Field.reset = v.fields.mapValues Field.reset at hfields
  change w.aliases = v.aliases at haliases
  have hkeys : w.fields.keys = v.fields.keys := by
    rw [← Entries.keys_mapValues Field.reset, hfields, Entries.keys_mapValues]
  refine ⟨hparams, ?_, fun e he => ?_, ?_⟩
  · exact h.fields_distinct.of_keys hkeys
  · have hmem : (e.1, e.2.reset) ∈ w.fields.mapValues Field.reset :=
      List.mem_map_of_mem he
    rw [hfields] at hmem
    obtain ⟨⟨l, g⟩, hg, heq⟩ := List.mem_map.1 hmem
    obtain ⟨hkey, hreset⟩ := Prod.mk.inj heq
    have hname : g.reset.name = e.2.reset.name := congrArg Field.name hreset
    exact hname.symm.trans ((h.names _ hg).trans hkey)
  · rw [← AliasMap.build_mapValues_reset, hfields, AliasMap.build_mapValues_reset, haliases]
    exact h.aliases

/-- The fields of a consistent validator have the names that they are declared under. -/
theorem Consistent.named {v : Validator} (h : v.Consistent) : v.Named := by
  intro e he
  obtain ⟨e', he', rfl⟩ := List.mem_map.1 he
  exact h.names e' he'

/-- A validator stays consistent when its fields are reset. -/
theorem Consistent.resetFields {v : Validator} (h : v.Consistent) : v.resetFields.Consistent :=
  h.of_declared h.params_distinct (declared_after h.named .resetFields)

/-- The alias map of a consistent validator belongs to its fields. -/
theorem Consistent.fits {v : Validator} (h : v.Consistent) : AliasMap.Fits v.fields v.aliases :=
  AliasMap.build_fits h.fields_distinct h.aliases

/-- A validator that can be had: one that was created, or a child of one, or what an operation made
of one. -/
inductive Reachable (hooks : Hooks) : Validator → Prop where
  | create {options : Options} {params : Value} {d : Declarations} {v : Validator}
      (hparams : params.KeysDiffer) (hfields : d.fields.KeysDiffer)
      (h : (Validator.create options params d).1 = .ok v) : Reachable hooks v
  | child {catalogue : Catalogue} {v w : Validator} {name : Value}
      (hcatalogue : ∀ p ∈ catalogue, p.fields.Distinct) (hv : Reachable hooks v)
      (h : (v.child catalogue name).1 = .ok w) : Reachable hooks w
  | validate {v : Validator} (targets : List Value) (hv : Reachable hooks v) :
      Reachable hooks (v.validate hooks targets).validator
  | recordError {v : Validator} (name message : Value) (hv : Reachable hooks v) :
      Reachable hooks (v.recordError name message).2
  | callCheck {v : Validator} (check : Check) (argument value : Value) (f : Field)
      (hv : Reachable hooks v) : Reachable hooks (v.callCheck hooks check argument value f).2
  | resetErrors {v : Validator} (hv : Reachable hooks v) : Reachable hooks v.resetErrors
  | resetFields {v : Validator} (hv : Reachable hooks v) : Reachable hooks v.resetFields
  | reset {v : Validator} (hv : Reachable hooks v) : Reachable hooks v.reset
  | enqueue {v : Validator} (names : List Value) (hv : Reachable hooks v) :
      Reachable hooks (v.enqueue names)
  | setParam {v w : Validator} {name value : Value} (hv : Reachable hooks v)
      (h : v.setParam name value = .ok w) : Reachable hooks w
  | setParams {v w : Validator} {params : Value} (hparams : params.KeysDiffer)
      (hv : Reachable hooks v) (h : v.setParams params = .ok w) : Reachable hooks w
  | setNestedParams {v w : Validator} {params : Value} (hv : Reachable hooks v)
      (h : v.setNestedParams params = .ok w) : Reachable hooks w
  | nestedParams {v : Validator} (hv : Reachable hooks v) : Reachable hooks v.nestedParams.2

/-- Parameters are kept under different keys. -/
theorem distinct_flatParams {o : DelimiterOptions} {params : Value} {flat : Entries Value}
    (hparams : params.KeysDiffer) (h : flatParams o params = .ok flat) : flat.Distinct := by
  unfold flatParams at h
  split at h
  · split at h
    · exact DelimiterOptions.distinct_flatten h
    · obtain rfl := Except.ok.inj h
      exact hparams
  · cases h

/-- An empty mapping in place of an empty value has different keys, too. -/
theorem keysDiffer_orEmpty {v : Value} (h : v.KeysDiffer) : (orEmpty v).KeysDiffer := by
  unfold orEmpty
  split
  · exact h
  · exact List.Pairwise.nil

/-- A validator that is created is consistent. -/
theorem consistent_create {options : Options} {params : Value} {d : Declarations} {v : Validator}
    (hparams : params.KeysDiffer) (hfields : d.fields.KeysDiffer)
    (h : (create options params d).1 = .ok v) : v.Consistent := by
  obtain ⟨journal, hbuild⟩ : ∃ journal, Returns (build options params d) {} v journal :=
    ⟨_, Prod.ext h rfl⟩
  rw [build] at hbuild
  simp only [Returns.bind_iff, Returns.pure_iff, Returns.liftM_iff, Returns.get_iff] at hbuild
  obtain ⟨flat, _, ⟨hflat, rfl⟩, ⟨resolved, mixins⟩, u, hresolve, _, w, -, aliases, _, ⟨haliases, rfl⟩,
    _, _, -, rfl, -⟩ := hbuild
  -- The fields are resolved under the names that they are declared under.
  obtain ⟨es, hes, hkeys⟩ := Merge.keys_resolve hresolve
  have hdistinct : Entries.Distinct es := by
    have hd := keysDiffer_orEmpty hfields
    rw [hes] at hd
    exact hd
  refine ⟨distinct_flatParams (keysDiffer_orEmpty hparams) hflat, ?_, ?_, haliases⟩
  · have hfieldKeys : (fieldsOf resolved).keys = resolved.keys := by
      unfold fieldsOf Entries.keys
      rw [List.map_map]
      rfl
    exact hdistinct.of_keys (hfieldKeys.trans (hkeys hdistinct))
  · intro e he
    obtain ⟨e', -, rfl⟩ := List.mem_map.1 he
    rfl

/-- Recording a message keeps a validator consistent. -/
theorem Consistent.recordError {v : Validator} (h : v.Consistent) (name message : Value) :
    (v.recordError name message).2.Consistent := by
  refine h.of_declared ?_ (v.declared_recordError name message)
  unfold Validator.recordError
  split
  · exact h.params_distinct
  · split <;> exact h.params_distinct

/-- Setting one parameter keeps a validator consistent. -/
theorem Consistent.setParam {v w : Validator} (h : v.Consistent) {name value : Value}
    (hset : v.setParam name value = .ok w) : w.Consistent := by
  unfold Validator.setParam at hset
  split at hset
  · obtain rfl := Except.ok.inj hset
    exact h.of_declared (h.params_distinct.insert name value) rfl
  · cases hset

/-- Removing one parameter keeps a validator consistent. -/
theorem Consistent.dropParam {v w : Validator} (h : v.Consistent) {name : Value}
    (hdrop : v.dropParam name = .ok w) : w.Consistent := by
  unfold Validator.dropParam at hdrop
  split at hdrop
  · obtain rfl := Except.ok.inj hdrop
    exact h.of_declared (h.params_distinct.erase name) rfl
  · cases hdrop

/-- Effects on a field keep a validator consistent. -/
theorem Consistent.perform (name : Value) (effects : List Effect) :
    ∀ {v : Validator}, v.Consistent → (Validator.perform name effects v).2.Consistent := by
  induction effects with
  | nil => exact fun h => h
  | cons e rest ih =>
    intro v h
    -- Messages are recorded alike against the field and against others.
    have hrecord : ∀ field message : Value,
        (Validator.perform name (.recordFor field message :: rest) v).2.Consistent := by
      intro field message
      have hrecord := h.recordError field message
      rw [Validator.perform]
      split
      · next w hw =>
        rw [hw] at hrecord
        exact ih hrecord
      · next e w hw =>
        rw [hw] at hrecord
        exact hrecord
    cases e with
    | record message => exact hrecord name message
    | recordFor field message => exact hrecord field message
    | setParam key value =>
      rw [Validator.perform]
      split
      · next w hw => exact ih (h.setParam hw)
      · exact h
    | dropParam key =>
      rw [Validator.perform]
      split
      · next w hw => exact ih (h.dropParam hw)
      · exact h

/-- A check that is called outside a run keeps a validator consistent. -/
theorem Consistent.callCheck {v : Validator} (h : v.Consistent) (hooks : Hooks) (check : Check)
    (argument value : Value) (f : Field) :
    (v.callCheck hooks check argument value f).2.Consistent := by
  have hperform := h.perform f.name
    (check.script hooks argument value f v.view).effects
  unfold Validator.callCheck
  dsimp only
  split
  · next w hw =>
    rw [hw] at hperform
    exact hperform
  · next e w hw =>
    rw [hw] at hperform
    exact hperform

/-- A run keeps a validator consistent. -/
theorem Consistent.validate {v : Validator} (h : v.Consistent) (hooks : Hooks)
    (targets : List Value) : (v.validate hooks targets).validator.Consistent :=
  h.of_declared (h.params_distinct.of_keys (keys_writeBack _ _))
    (declared_validate h.named hooks targets)

/-- Other parameters under different keys keep a validator consistent. -/
theorem Consistent.withParams {v : Validator} (h : v.Consistent) {params : Entries Value}
    (hparams : params.Distinct) : (v.withParams params).Consistent :=
  h.of_declared hparams rfl

/-- Building nested data keeps a validator consistent. -/
theorem Consistent.nestedParams {v : Validator} (h : v.Consistent) :
    v.nestedParams.2.Consistent :=
  h.of_declared (h.params_distinct.of_keys (v.sharing.keys_build v.options.delimiters v.params))
    (declared_after h.named .nestedParams)

/-- A child with declarations under different names is consistent. -/
theorem Consistent.child {catalogue : Catalogue} (hcatalogue : ∀ p ∈ catalogue, p.fields.Distinct)
    {v w : Validator} (h : v.Consistent) {name : Value}
    (hchild : (v.child catalogue name).1 = .ok w) : w.Consistent := by
  obtain ⟨profile, hprofile, built, hbuilt, sharing, rfl⟩ := newFrom_child hchild
  have hparams : (Value.dict v.params).KeysDiffer := h.params_distinct
  have hfields : (Value.dict profile.fields).KeysDiffer := hcatalogue profile hprofile
  have hc : built.Consistent := consistent_create hparams hfields hbuilt
  -- What the child shares with its parent has nothing to do with this.
  exact hc.of_declared hc.params_distinct rfl

/-- Every validator that can be had is consistent. -/
theorem Reachable.consistent {hooks : Hooks} {v : Validator} (h : Reachable hooks v) :
    v.Consistent := by
  induction h with
  | create hparams hfields h => exact consistent_create hparams hfields h
  | child hcatalogue hv h ih => exact ih.child hcatalogue h
  | validate targets hv ih => exact ih.validate hooks targets
  | recordError name message hv ih => exact ih.recordError name message
  | callCheck check argument value f hv ih => exact ih.callCheck hooks check argument value f
  | resetErrors hv ih =>
    exact ih.of_declared ih.params_distinct (declared_after ih.named .resetErrors)
  | resetFields hv ih => exact ih.resetFields
  | reset hv ih => exact ih.of_declared ih.params_distinct (declared_after ih.named .reset)
  | enqueue names hv ih => exact ih.of_declared ih.params_distinct rfl
  | setParam hv h ih => exact ih.setParam h
  | setParams hparams hv h ih =>
    obtain ⟨flat, hflat, hw⟩ := bind_eq_ok_iff.1 h
    obtain rfl := Except.ok.inj hw
    exact ih.withParams (distinct_flatParams hparams hflat)
  | setNestedParams hv h ih =>
    obtain ⟨flat, hflat, hw⟩ := bind_eq_ok_iff.1 h
    obtain rfl := Except.ok.inj hw
    exact ih.withParams (DelimiterOptions.distinct_flatten hflat)
  | nestedParams hv ih => exact ih.nestedParams

end Validator

end ParamCheck
