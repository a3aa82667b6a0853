import ParamCheck.Proofs.Validator.Turns

/-!
# The parameters after a run

A run works on a copy of the parameters and hands filtered values back to the keys that supplied the
fields. If no mapping renames parameters, each declared field is supplied by one of its aliases or
stands under its own name, no two fields are supplied by the same key, and the turn of a field is the
only one that can touch what its key gets back (`Validator.Ran.filtered_supplier`). So the parameters
are afterwards those from before but for the filters (`Validator.validate_params`).
-/

namespace ParamCheck.Validator

variable {hooks : Hooks} {v : Validator} {targets : List Value} {plan : Plan} {run₀ run : Run}

/-- Filtered values replace those of their keys, and no key comes or goes. -/
theorem lookup_writeBack {filtered : Entries Value} (hfiltered : filtered.Distinct) (k : Value) :
    ∀ params : Entries Value, (writeBack params filtered).lookup k =
      (params.lookup k).map fun x => (filtered.lookup k).getD x := by
  induction filtered with
  | nil =>
    intro params
    show params.lookup k = (params.lookup k).map id
    rw [Option.map_id_apply]
  | cons e rest ih =>
    obtain ⟨l, w⟩ := e
    intro params
    obtain ⟨hl, hrest⟩ := List.pairwise_cons.1 hfiltered
    -- The first value goes to its key if that is present; later ones go to other keys.
    show (writeBack (if params.contains l then params.insert l w else params) rest).lookup k = _
    rw [ih hrest, Entries.lookup]
    unfold Entries.contains
    by_cases hkey : l.key? = k.key?
    · have hnone : Entries.lookup rest k = none :=
        Entries.lookup_eq_none_iff.2 fun e he => hkey ▸ (hl e he).symm
      rw [if_pos hkey, hnone, Entries.lookup_congr hkey]
      cases hk : params.lookup k with
      | none =>
        rw [Option.isSome_none, if_neg Bool.false_ne_true, hk]
        rfl
      | some x =>
        rw [Option.isSome_some, if_pos rfl, Entries.lookup_insert, if_pos hkey]
        rfl
    · rw [if_neg hkey]
      split
      · rw [Entries.lookup_insert, if_neg hkey]
      · rfl

/-- The key that supplies a declared field in a run without a mapping. -/
theorem Ran.source_eq (hran : Ran hooks v targets plan run₀ run) (hv : v.Consistent)
    (hmapping : mappingTarget? targets = none) {name : String} {f : Field}
    (hf : v.fields.lookup (.str name) = some f) :
    source plan name = AliasMap.supplier v.params (.str name) f ∧
      run₀.params.lookup (.str name) =
        v.params.lookup (AliasMap.supplier v.params (.str name) f) := by
  obtain ⟨hparam, hsource⟩ := plan_supplier hv.resetFields.fits hv.resetFields.fields_distinct
    hv.params_distinct hmapping hran.planned (lookup_resetFields hf)
  exact ⟨hsource, hparam⟩

/-- The declaration of a field that has its turn. -/
theorem Ran.declared (hran : Ran hooks v targets plan run₀ run) {name : String} {g : Field}
    (hg : v.resetFields.fields.lookup (.str name) = some g) :
    ∃ f, v.fields.lookup (.str name) = some f ∧ g = f.reset := by
  rw [← hran.fields, hran.lookup] at hg
  obtain ⟨f, hf, rfl⟩ := Option.map_eq_some_iff.1 hg
  exact ⟨f, hf, rfl⟩

/-- A key that supplies no selected field gets nothing back. -/
theorem Ran.filtered_other (hran : Ran hooks v targets plan run₀ run) (hv : v.Consistent)
    (hmapping : mappingTarget? targets = none) {k : Value}
    (hk : ∀ name ∈ plan.selected, ∀ f, v.fields.lookup (.str name) = some f →
      (AliasMap.supplier v.params (.str name) f).key? ≠ k.key?) :
    run.filtered.lookup k = none := by
  have hsource : ∀ name ∈ plan.selected, ∀ g, v.resetFields.fields.lookup (.str name) = some g →
      (source plan name).key? ≠ k.key? := by
    intro name hname g hg
    obtain ⟨f, hf, -⟩ := hran.declared hg
    rw [(hran.source_eq hv hmapping hf).1]
    exact hk name hname f hf
  rw [checkFields_filtered hran.plain hsource hran.keeps hran.turns, hran.filtered,
    Entries.lookup_nil]

/-- The key that supplies a selected field gets back what the filters make of its parameter. -/
theorem Ran.filtered_supplier (hran : Ran hooks v targets plan run₀ run) (hv : v.Consistent)
    (hmapping : mappingTarget? targets = none) {name : String} (hname : name ∈ plan.selected)
    {f : Field} (hf : v.fields.lookup (.str name) = some f) {x : Value}
    (hx : v.params.lookup (AliasMap.supplier v.params (.str name) f) = some x) :
    runFilters hooks.filter v.filters f.filters x =
      .ok ((run.filtered.lookup (AliasMap.supplier v.params (.str name) f)).getD x) := by
  obtain ⟨hsource, hparam⟩ := hran.source_eq hv hmapping hf
  have hfits := hv.fits
  obtain ⟨before, after, hsplit⟩ := List.append_of_mem hname
  have hnodup := hran.nodup
  have hturns := hran.turns
  rw [hsplit] at hnodup hturns
  obtain ⟨r, w, hbefore, hturn, hafter, hrkeeps, hwkeeps, hrparam, -, hrfield, -⟩ :=
    checkFields_turn hran.plain hnodup hran.keeps hran.distinct hturns
  -- Other turns are those of fields that other keys supply.
  have hothers : ∀ names : List String, name ∉ names → ∀ n ∈ names, ∀ g,
      v.resetFields.fields.lookup (.str n) = some g →
        (source plan n).key? ≠ (AliasMap.supplier v.params (.str name) f).key? := by
    intro names hnot n hn g hg
    obtain ⟨f', hf', -⟩ := hran.declared hg
    rw [(hran.source_eq hv hmapping hf').1]
    refine AliasMap.supplier_ne hfits hf' hf (fun hkey => hnot ?_) v.params
    obtain rfl := Value.str.inj (Value.eq_str_of_key? hkey)
    exact hn
  obtain ⟨-, hcons, hdisjoint⟩ := List.nodup_append.1 hnodup
  obtain ⟨hnotAfter, -⟩ := List.nodup_cons.1 hcons
  have hnotBefore : name ∉ before := fun hmem => hdisjoint name hmem name List.mem_cons_self rfl
  -- Before the turn there is nothing to give back, and after it nothing more is added.
  have hr : r.filtered.lookup (AliasMap.supplier v.params (.str name) f) = none := by
    rw [checkFields_filtered hran.plain (hothers before hnotBefore) hran.keeps hbefore,
      hran.filtered, Entries.lookup_nil]
  have hrun := checkFields_filtered hran.plain (hothers after hnotAfter) hwkeeps hafter
  obtain ⟨filtered, hw, -, -, hvalue⟩ := checkName_filtered hran.plain hrkeeps hturn
  have hreset : r.fields.lookup (.str name) = some f.reset := by
    rw [hrfield, hran.lookup, hf]
    rfl
  have hfilters : runFilters hooks.filter v.filters f.filters x = .ok (filtered.getD x) :=
    hvalue f.reset x hreset (hrparam.trans (hparam.trans hx))
  rw [hrun, hw, hsource, hfilters]
  cases filtered with
  | none =>
    dsimp only
    rw [hr]
  | some y =>
    dsimp only
    rw [Entries.lookup_insert, if_pos rfl]

/-- A run that returns, with built-in checks, without validation callbacks and without a mapping
among its targets, leaves the parameters under their keys, in their order. The key that supplies a
selected field has what the field's filters make of its parameter if that is a text. Every other key
has the parameter that it had; among them are the names of fields that an alias supplies. -/
theorem validate_params {b : Bool} (hv : Reachable hooks v) (hdirectives : v.directives = .builtin)
    (hcallback : ∀ e ∈ v.fields, e.2.validation.isCallback = false)
    (hmapping : mappingTarget? targets = none)
    (h : (v.validate hooks targets).answer = .ok b) :
    ∃ plan run₀,
      Returns (v.resetFields.plan targets) { params := v.params, fields := v.resetFields.fields }
        plan run₀ ∧
      (v.validate hooks targets).validator.params.keys = v.params.keys ∧
      (∀ name ∈ plan.selected, ∀ f, v.fields.lookup (.str name) = some f →
        ∀ x, v.params.lookup (AliasMap.supplier v.params (.str name) f) = some x →
          ∃ y, (v.validate hooks targets).validator.params.lookup
              (AliasMap.supplier v.params (.str name) f) = some y ∧
            runFilters hooks.filter v.filters f.filters x = .ok y ∧
            ((∀ text, x ≠ .str text) → y = x)) ∧
      (∀ k, (∀ name ∈ plan.selected, ∀ f, v.fields.lookup (.str name) = some f →
          (AliasMap.supplier v.params (.str name) f).key? ≠ k.key?) →
        (v.validate hooks targets).validator.params.lookup k = v.params.lookup k) ∧
      ∀ k f, v.fields.lookup k = some f → (AliasMap.supplier v.params k f).key? ≠ k.key? →
        (v.validate hooks targets).validator.params.lookup k = v.params.lookup k := by
  have hconsistent := hv.consistent
  obtain ⟨plan, run₀, run, hran⟩ := exists_ran hconsistent hdirectives hcallback h
  -- Each key gets back one value at most.
  have hdistinct : run.filtered.Distinct := by
    refine distinct_filtered hran.plain hran.keeps ?_ hran.turns
    rw [hran.filtered]
    exact List.Pairwise.nil
  have hother : ∀ k, (∀ name ∈ plan.selected, ∀ f, v.fields.lookup (.str name) = some f →
      (AliasMap.supplier v.params (.str name) f).key? ≠ k.key?) →
        (v.validate hooks targets).validator.params.lookup k = v.params.lookup k := by
    intro k hk
    rw [hran.params_after, lookup_writeBack hdistinct, hran.filtered_other hconsistent hmapping hk]
    show (v.params.lookup k).map id = _
    rw [Option.map_id_apply]
  refine ⟨plan, run₀, hran.planned, ?_, fun name hname f hf x hx => ?_, hother,
    fun k f hf hk => hother k fun name _ g hg hkey => ?_⟩
  · rw [hran.params_after, keys_writeBack]
  · have hfilters := hran.filtered_supplier hconsistent hmapping hname hf hx
    refine ⟨_, ?_, hfilters, fun htext => ?_⟩
    · rw [hran.params_after, lookup_writeBack hdistinct, hx]
      rfl
    -- Filters run on texts only.
    · unfold runFilters at hfilters
      split at hfilters
      · next text => exact absurd rfl (htext text)
      · exact (Except.ok.inj hfilters).symm
  · -- The field of that name would be supplied by its own name.
    have hfits := AliasMap.build_fits hconsistent.fields_distinct hconsistent.aliases
    have hown := AliasMap.supplier_of_declared hfits hg hf v.params hkey
    rw [hown] at hkey
    obtain rfl := Value.eq_str_of_key? hkey.symm
    obtain rfl := Option.some.inj (hg.symm.trans hf)
    exact hk (congrArg Value.key? hown)

/-- A field that trims and has the given aliases. -/
def trimmed (names : List Value) : Field where
  name := .str "f"
  directives := [(.str "alias", .list names), (.str "filters", .list [.str "trim"])]

/-- A validator for one field. -/
def single (f : Field) (aliases : AliasMap) (params : Entries Value) : Validator where
  options := {}
  directives := .builtin
  filters := .builtin
  children := []
  mixins := []
  fields := [(.str "f", f)]
  aliases
  warnings := []
  params

/-- A validator for a field that lists its first alias again. -/
def repeated : Validator :=
  single (trimmed [.str "a", .str "b", .str "a"])
    { fields := [(.str "f", [.str "a", .str "b"])]
      aliases := [(.str "a", .str "f"), (.str "b", .str "f")] }
    [(.str "a", .str " x "), (.str "b", .str " y ")]

/-- A validator for a field whose alias is no name. -/
def unnamed : Validator :=
  single (trimmed [.null])
    { fields := [(.str "f", [.null])], aliases := [(.null, .str "f")] } [(.null, .str " x ")]

/-- The validator is created from the directives of its field. -/
theorem reachable_repeated : Reachable .none repeated :=
  @Reachable.create .none {} (.dict repeated.params)
    { fields := .dict (repeated.fields.mapValues fun f => .dict f.directives) } repeated
    (by unfold Value.KeysDiffer; decide) (by unfold Value.KeysDiffer; decide) rfl

/-- The validator is created from the directives of its field. -/
theorem reachable_unnamed : Reachable .none unnamed :=
  @Reachable.create .none {} (.dict unnamed.params)
    { fields := .dict (unnamed.fields.mapValues fun f => .dict f.directives) } unnamed
    (by unfold Value.KeysDiffer; decide) (by unfold Value.KeysDiffer; decide) rfl

/-- The alias that is listed again supplies the field only if no later one is present: here the
filtered text goes to the other alias. -/
theorem validate_params_repeated :
    ∃ y, (repeated.validate .none [.str "f"]).validator.params.lookup (.str "b") = some y ∧
      y.text = "y" ∧
      (repeated.validate .none [.str "f"]).validator.params.lookup (.str "a") =
        some (.str " x ") := by
  have hanswer : (repeated.validate .none [.str "f"]).answer = .ok true :=
    ok_of_toOption (by decide +kernel)
  obtain ⟨plan, run₀, hplan, -, hsupplied, hother, -⟩ :=
    validate_params reachable_repeated rfl (by decide) rfl hanswer
  have hselected : plan.selected = ["f"] :=
    Option.some.inj ((selected?_eq hplan).symm.trans (by decide +kernel))
  have hsupplier : AliasMap.supplier repeated.params (.str "f")
      (trimmed [.str "a", .str "b", .str "a"]) = .str "b" := rfl
  obtain ⟨y, hy, hfilters, -⟩ := hsupplied "f" (by simp [hselected]) _ rfl (.str " y ") rfl
  have htext : (runFilters Hooks.none.filter repeated.filters
      (trimmed [.str "a", .str "b", .str "a"]).filters (.str " y ")).toOption.map Value.text =
        some "y" := by decide +kernel
  have hkept := hother (.str "a") fun name hname f hf => by
    rw [hselected] at hname
    obtain rfl := List.mem_singleton.1 hname
    obtain rfl := Option.some.inj hf
    rw [hsupplier]
    decide
  rw [hsupplier] at hy
  rw [hfilters] at htext
  exact ⟨y, hy, Option.some.inj htext, hkept⟩

/-- In runs with built-in checks, without validation callbacks and without a mapping among the
targets, the key that is chosen for a selected field has afterwards what the field's filters make of
its parameter. -/
def GivesBackTo (choose : Entries Value → Value → Field → Value) : Prop :=
  ∀ {hooks : Hooks} {v : Validator} {targets : List Value} {b : Bool} {plan : Plan} {run₀ : Run},
    Reachable hooks v → v.directives = .builtin →
      (∀ e ∈ v.fields, e.2.validation.isCallback = false) → mappingTarget? targets = none →
        (v.validate hooks targets).answer = .ok b →
          Returns (v.resetFields.plan targets)
            { params := v.params, fields := v.resetFields.fields } plan run₀ →
            ∀ name ∈ plan.selected, ∀ f, v.fields.lookup (.str name) = some f →
              ∀ x, v.params.lookup (choose v.params (.str name) f) = some x →
                ∃ y, (v.validate hooks targets).validator.params.lookup
                    (choose v.params (.str name) f) = some y ∧
                  runFilters hooks.filter v.filters f.filters x = .ok y

/-- What refutes that a chosen key is given back what the filters make of its parameter: a run of a
validator for one field after which that key has another text. -/
theorem not_givesBackTo {choose : Entries Value → Value → Field → Value} {v : Validator} {f : Field}
    {x : Value} (kept made : String) (hv : Reachable .none v) (hdirectives : v.directives = .builtin)
    (hcallback : ∀ e ∈ v.fields, e.2.validation.isCallback = false)
    (hanswer : (v.validate .none [.str "f"]).answer = .ok true)
    (hselected : v.selected? [.str "f"] = some ["f"]) (hf : v.fields.lookup (.str "f") = some f)
    (hx : v.params.lookup (choose v.params (.str "f") f) = some x)
    (hkept : ((v.validate .none [.str "f"]).validator.params.lookup
      (choose v.params (.str "f") f)).map Value.text = some kept)
    (hmade : (runFilters Hooks.none.filter v.filters f.filters x).toOption.map Value.text =
      some made) (hne : kept ≠ made) : ¬ GivesBackTo choose := by
  intro h
  obtain ⟨plan, run₀, run, hran⟩ := exists_ran hv.consistent hdirectives hcallback hanswer
  have hmem : "f" ∈ plan.selected := by
    have heq := (selected?_eq hran.planned).symm.trans hselected
    rw [Option.some.inj heq]
    exact List.mem_singleton_self _
  obtain ⟨y, hy, hfilters⟩ := h hv hdirectives hcallback rfl hanswer hran.planned "f" hmem f hf x hx
  rw [hy] at hkept
  rw [hfilters] at hmade
  exact hne (Option.some.inj (hkept.symm.trans hmade))

/-- The alias that supplies a field cannot be told from the aliases as they are listed: neither is it
the last one listed that is present, nor, once repetitions are dropped, the last one that is
present, since one that is no name supplies nothing. -/
theorem not_givesBackTo_listed :
    ¬ GivesBackTo (fun params name f => (f.aliases.reverse.find? params.contains).getD name) ∧
      ¬ GivesBackTo (fun params name f =>
        ((Value.unique f.aliases).reverse.find? params.contains).getD name) := by
  constructor
  · -- The last alias that is listed is the first one, but the second one supplies the field.
    exact not_givesBackTo " x " "x" reachable_repeated rfl (by decide)
      (ok_of_toOption (by decide +kernel)) (by decide +kernel) rfl rfl (by decide +kernel)
      (by decide +kernel) (by decide)
  · -- The alias is present, but it is not taken for one.
    exact not_givesBackTo " x " "x" reachable_unnamed rfl (by decide)
      (ok_of_toOption (by decide +kernel)) (by decide +kernel) rfl rfl (by decide +kernel)
      (by decide +kernel) (by decide)

end ParamCheck.Validator
