import ParamCheck.Proofs.Alias.Moves
import ParamCheck.Proofs.Validator.Filtered
import ParamCheck.Proofs.Validator.Order

/-!
# Runs that rename parameters

A mapping among the targets moves parameters to the names of fields before aliases are moved, one
entry after the other, and each move puts down the key that it started from. What is put down is the
key of the caller as long as no entry moves what an earlier one has moved, and none moves a
parameter to an alias (`Validator.Direct`): then each field is known to be supplied by the key that
its parameter came from (`Validator.Traced`, `Validator.plan_origin`), and that key gets back what the
filters make of it (`Validator.validate_params_of_direct`). Otherwise a filtered value can end up with a
key that did not supply it, or nowhere (`Validator.not_writesBackToOrigin`).
-/

namespace ParamCheck

namespace Validator

/-! ## Where parameters come from -/

/-- Parameters that carry the entries of the caller that they come from, and the keys that are put
down as their sources: each source is the key of the caller, and no two parameters come from the same
one. -/
structure Traced (original : Entries Value) (params : Entries (Value × Value))
    (sources : Entries Value) : Prop where
  known : ∀ {l k x}, params.lookup l = some (k, x) →
    original.lookup k = some x ∧ ((sources.lookup l).getD l).key? = k.key?
  apart : ∀ {l l' k x k' x'}, params.lookup l = some (k, x) → params.lookup l' = some (k', x') →
    k.key? = k'.key? → l.key? = l'.key?

/-- At first each parameter comes from its own key. -/
theorem traced_tagged (params : Entries Value) : Traced params (tagged params) [] := by
  have hself : ∀ {l k x}, (tagged params).lookup l = some (k, x) →
      params.lookup k = some x ∧ l.key? = k.key? := by
    intro l k x h
    obtain ⟨l', hl', hkey⟩ := Entries.exists_mem_of_lookup h
    obtain ⟨e, -, heq⟩ := List.mem_map.1 hl'
    obtain ⟨rfl, hpair⟩ := Prod.mk.inj heq
    obtain ⟨rfl, -⟩ := Prod.mk.inj hpair
    have hvalue := lookup_tagged params l
    rw [h] at hvalue
    rw [Entries.lookup_congr hkey]
    exact ⟨hvalue.symm, hkey.symm⟩
  refine ⟨fun h => ?_, fun h h' hkey => ?_⟩
  · obtain ⟨hvalue, hkey⟩ := hself h
    exact ⟨hvalue, hkey⟩
  · rw [(hself h).2, (hself h').2, hkey]

/-- A parameter whose source is its own key can be moved to a name, and the key is put down as the
source of that. -/
theorem Traced.move {original sources : Entries Value} {params : Entries (Value × Value)}
    (h : Traced original params sources) {key : Value} {entry : Value × Value}
    (hentry : params.lookup key = some entry) (hkey : sources.lookup key = none) (name : Value) :
    Traced original ((params.erase key).insert name entry) (sources.insert name key) := by
  have hlookup : ∀ {l k x}, Entries.lookup ((params.erase key).insert name entry) l = some (k, x) →
      name.key? = l.key? ∧ entry = (k, x) ∨
        name.key? ≠ l.key? ∧ key.key? ≠ l.key? ∧ params.lookup l = some (k, x) := by
    intro l k x hl
    rw [Entries.lookup_insert, Entries.lookup_erase] at hl
    split at hl
    · next hname => exact .inl ⟨hname, Option.some.inj hl⟩
    · next hname =>
      split at hl
      · cases hl
      · next hother => exact .inr ⟨hname, hother, hl⟩
  refine ⟨fun hl => ?_, fun hl hl' hsame => ?_⟩
  · rcases hlookup hl with ⟨hname, rfl⟩ | ⟨hname, -, hold⟩
    · obtain ⟨hvalue, hsource⟩ := h.known hentry
      rw [hkey, Option.getD_none] at hsource
      refine ⟨hvalue, ?_⟩
      rw [Entries.lookup_insert, if_pos hname]
      exact hsource
    · obtain ⟨hvalue, hsource⟩ := h.known hold
      refine ⟨hvalue, ?_⟩
      rw [Entries.lookup_insert, if_neg hname]
      exact hsource
  -- The parameter that is moved is the only one that comes from its key.
  · rcases hlookup hl with ⟨hname, rfl⟩ | ⟨-, hother, hold⟩
    · rcases hlookup hl' with ⟨hname', -⟩ | ⟨-, hother', hold'⟩
      · exact hname.symm.trans hname'
      · exact absurd (h.apart hentry hold' hsame) hother'
    · rcases hlookup hl' with ⟨-, rfl⟩ | ⟨-, -, hold'⟩
      · exact absurd (h.apart hold hentry hsame).symm hother
      · exact h.apart hold hold' hsame

/-- The name that an entry of a mapping target moves a parameter to. -/
def nameOf : Value → Value
  | .str target => .str (Toggle.parse target).1
  | target => target

/-- Of the entries of a mapping target that find a parameter, none moves what an earlier one has moved
to its name, and none moves a parameter to an alias. -/
structure Direct (m : AliasMap) (params : Entries Value) (entries : List (Value × Value)) :
    Prop where
  once : entries.Pairwise fun e e' => params.contains e.1 = true → (nameOf e.2).key? ≠ e'.1.key?
  names : ∀ e ∈ entries, params.contains e.1 = true →
    ∀ f ∈ m.fields, ∀ a ∈ f.2, (nameOf e.2).key? ≠ a.key?

/-- Entries stay direct when the first one is left out. -/
theorem Direct.tail {m : AliasMap} {params : Entries Value} {e : Value × Value}
    {rest : List (Value × Value)} (h : Direct m params (e :: rest)) : Direct m params rest where
  once := (List.pairwise_cons.1 h.once).2
  names f hf := h.names f (List.mem_cons_of_mem _ hf)

/-- Direct entries put down the keys of the caller, and none for an alias. -/
theorem traced_rename {m : AliasMap} {original : Entries Value} {entries : List (Value × Value)} :
    ∀ {params : Entries (Value × Value)} {sources : Entries Value}
      {r : Entries (Value × Value) × Entries Value × List String},
      Direct m original entries → Traced original params sources →
        (∀ e ∈ entries, sources.lookup e.1 = none) →
          (∀ f ∈ m.fields, ∀ a ∈ f.2, sources.lookup a = none) →
            rename entries params sources = .ok r →
              Traced original r.1 r.2.1 ∧ ∀ f ∈ m.fields, ∀ a ∈ f.2, r.2.1.lookup a = none := by
  induction entries with
  | nil =>
    intro params sources r _ htraced _ hnone h
    obtain rfl := Except.ok.inj h
    exact ⟨htraced, hnone⟩
  | cons e rest ih =>
    intro params sources r hdirect htraced hkeys hnone h
    obtain ⟨key, target⟩ := e
    have hself := List.mem_cons_self (a := (key, target)) (l := rest)
    have hlater : ∀ e ∈ rest, sources.lookup e.1 = none :=
      fun e he => hkeys e (List.mem_cons_of_mem _ he)
    cases target with
    | str target =>
      rw [rename] at h
      cases hkey : params.lookup key with
      | none =>
        rw [hkey] at h
        obtain ⟨r', hrest, rfl⟩ := map_eq_ok_iff.1 h
        have hdone := ih hdirect.tail htraced hlater hnone hrest
        exact hdone
      | some entry =>
        rw [hkey] at h
        obtain ⟨r', hrest, rfl⟩ := map_eq_ok_iff.1 h
        -- The entry moves a parameter of the caller.
        have hcontains : original.contains key = true := by
          obtain ⟨hvalue, hsource⟩ := htraced.known (k := entry.1) (x := entry.2) hkey
          rw [hkeys _ hself, Option.getD_none] at hsource
          unfold Entries.contains
          rw [Entries.lookup_congr hsource, hvalue]
          rfl
        have hmoved := htraced.move hkey (hkeys _ hself) (.str (Toggle.parse target).1)
        have hlater' : ∀ e ∈ rest,
            (sources.insert (.str (Toggle.parse target).1) key).lookup e.1 = none := by
          intro e he
          have hne := (List.pairwise_cons.1 hdirect.once).1 e he hcontains
          exact (Entries.lookup_insert _ _ _ _).trans ((if_neg hne).trans (hlater e he))
        have hnone' : ∀ f ∈ m.fields, ∀ a ∈ f.2,
            (sources.insert (.str (Toggle.parse target).1) key).lookup a = none := by
          intro f hf a ha
          have hne := hdirect.names _ hself hcontains f hf a ha
          exact (Entries.lookup_insert _ _ _ _).trans ((if_neg hne).trans (hnone f hf a ha))
        have hdone := ih hdirect.tail hmoved hlater' hnone' hrest
        exact hdone
    | _ => cases h

section

variable {v : Validator} {targets : List Value} {run run' : Run} {plan : Plan}
  {entries : List (Value × Value)} (hfits : AliasMap.Fits v.fields v.aliases)
  (hfields : v.fields.Distinct) (hparams : run.params.Distinct)
  (hmapping : mappingTarget? targets = some entries)
  (hdirect : Direct v.aliases run.params entries) (h : Returns (v.plan targets) run plan run')

include hfits hfields hparams hmapping hdirect h

/-- A plan with a direct mapping knows for each declared field that has a parameter which key of the
caller that comes from, and different fields have theirs from different keys. -/
theorem plan_origin :
    (∀ {name f k}, v.fields.lookup name = some f → plan.origins.lookup name = some k →
      ((plan.sources.lookup name).getD name).key? = k.key? ∧
        ∃ x, run.params.lookup k = some x ∧ run'.params.lookup name = some x) ∧
    ∀ {name name' f f' k k'}, v.fields.lookup name = some f → v.fields.lookup name' = some f' →
      plan.origins.lookup name = some k → plan.origins.lookup name' = some k' →
        k.key? = k'.key? → name.key? = name'.key? := by
  obtain ⟨params, sources, requested, parsed, hplan⟩ := plan_eq h
  have hrename : rename entries (tagged run.params) [] = .ok (params, sources, requested) := by
    have hrequest := hplan.requested_eq
    unfold request at hrequest
    rw [hmapping] at hrequest
    exact hrequest
  obtain ⟨htraced, hnone⟩ := traced_rename hdirect (traced_tagged run.params) (fun _ _ => rfl)
    (fun _ _ _ _ => rfl) hrename
  have htagged : (tagged run.params).Distinct := List.pairwise_map.2 hparams
  obtain ⟨-, hdistinct⟩ := v.aliases.distinct_move (distinct_rename htagged hrename)
  -- The entry of the caller is found at the key that supplies the field.
  have hentry : ∀ {name f k}, v.fields.lookup name = some f → plan.origins.lookup name = some k →
      ∃ x, params.lookup (AliasMap.supplier params name f) = some (k, x) ∧
        run'.params.lookup name = some x := by
    intro name f k hf hk
    obtain ⟨hmoved, -⟩ := AliasMap.lookup_move hfits hfields hf params
    rw [hplan.origins_eq, Entries.lookup_mapValues, hmoved] at hk
    obtain ⟨⟨k', x⟩, hx, rfl⟩ := Option.map_eq_some_iff.1 hk
    refine ⟨x, hx, ?_⟩
    rw [hplan.params_eq, Entries.lookup_mapValues, hmoved, hx]
    rfl
  refine ⟨fun {name f k} hf hk => ?_, fun {name name' f f' k k'} hf hf' hk hk' hsame => ?_⟩
  · obtain ⟨x, hx, hparam⟩ := hentry hf hk
    obtain ⟨hvalue, hsource⟩ := htraced.known hx
    refine ⟨?_, x, hvalue, hparam⟩
    obtain ⟨-, hsupplier⟩ := AliasMap.lookup_move hfits hfields hf params
    obtain ⟨-, hmoved⟩ := AliasMap.lookup_move_other hfits hfields (hfits.ne_alias hf) params
    rw [hplan.sources_eq, Entries.lookup_overlay hdistinct]
    rw [hmoved] at hsupplier ⊢
    cases hs : AliasMap.source? v.aliases.fields params name with
    | none =>
      rw [hs, Option.getD_none] at hsupplier
      rw [← hsupplier] at hsource
      exact hsource
    | some s =>
      -- No parameter has been moved to the alias that supplies the field.
      obtain ⟨e, he, hmem⟩ := AliasMap.mem_of_source? hs
      rw [hs, Option.getD_some] at hsupplier
      rw [← hsupplier, hnone e he s hmem] at hsource
      exact hsource
  · obtain ⟨x, hx, -⟩ := hentry hf hk
    obtain ⟨x', hx', -⟩ := hentry hf' hk'
    by_contra hne
    exact AliasMap.supplier_ne hfits hf hf' hne params (htraced.apart hx hx' hsame)

end

/-- A plan knows where every parameter of the run comes from. -/
theorem exists_origin {v : Validator} {targets : List Value} {run run' : Run} {plan : Plan}
    (h : Returns (v.plan targets) run plan run') {name x : Value}
    (hx : run'.params.lookup name = some x) : ∃ k, plan.origins.lookup name = some k := by
  obtain ⟨params, sources, requested, parsed, hplan⟩ := plan_eq h
  rw [hplan.params_eq, Entries.lookup_mapValues] at hx
  obtain ⟨entry, hentry, -⟩ := Option.map_eq_some_iff.1 hx
  refine ⟨entry.1, ?_⟩
  rw [hplan.origins_eq, Entries.lookup_mapValues, hentry]
  rfl

/-! ## What the keys of the caller get back -/

section

variable {hooks : Hooks} {v : Validator} {targets : List Value} {plan : Plan} {run₀ run : Run}
  {entries : List (Value × Value)}

/-- The filters of a selected field that has a parameter do not fail in a run that returns. -/
theorem Ran.runFilters_ok (hran : Ran hooks v targets plan run₀ run) {name : String}
    (hname : name ∈ plan.selected) {f : Field} (hf : v.fields.lookup (.str name) = some f)
    {x : Value} (hx : run₀.params.lookup (.str name) = some x) :
    ∃ y, runFilters hooks.filter v.filters f.filters x = .ok y := by
  obtain ⟨before, after, hsplit⟩ := List.append_of_mem hname
  obtain ⟨z, hz, -⟩ := hran.lookup_selected hsplit hf
  rw [hx] at hz
  obtain ⟨y, hy, -⟩ := map_eq_ok_iff.1 hz
  exact ⟨y, hy⟩

variable (hv : v.Consistent) (hmapping : mappingTarget? targets = some entries)
  (hdirect : Direct v.aliases v.params entries) (hran : Ran hooks v targets plan run₀ run)

include hv hmapping hdirect hran

/-- In a run with a direct mapping it is known for each declared field that has a parameter which key
of the caller that comes from, and different fields have theirs from different keys. -/
theorem Ran.origin :
    (∀ {name f k}, v.fields.lookup (.str name) = some f → plan.origins.lookup (.str name) = some k →
      (source plan name).key? = k.key? ∧
        ∃ x, v.params.lookup k = some x ∧ run₀.params.lookup (.str name) = some x) ∧
    ∀ {name name' f f' k k'}, v.fields.lookup (.str name) = some f →
      v.fields.lookup (.str name') = some f' → plan.origins.lookup (.str name) = some k →
        plan.origins.lookup (.str name') = some k' → k.key? = k'.key? → name = name' := by
  obtain ⟨horigin, happart⟩ := plan_origin hv.resetFields.fits hv.resetFields.fields_distinct
    hv.params_distinct hmapping (by exact hdirect) hran.planned
  refine ⟨fun hf hk => horigin (lookup_resetFields hf) hk, fun hf hf' hk hk' hsame => ?_⟩
  have hkey := happart (lookup_resetFields hf) (lookup_resetFields hf') hk hk' hsame
  exact Value.str.inj (Value.eq_str_of_key? hkey)

/-- In a run with a direct mapping, what is filtered in the turn of a name is the parameter of a
declared field, and it is put down for the key of the caller that the parameter comes from. -/
theorem Ran.origin_of_filtered {before after : List String} {name : String} {r : Run} {y : Value}
    (hcomes : Comes hooks v.resetFields plan plan.selected run₀ before name after r)
    (hy : filteredAt hooks v.resetFields r name = some y) :
    filteredAt hooks v.resetFields run₀ name = some y ∧
      ∃ f k, v.fields.lookup (.str name) = some f ∧ plan.origins.lookup (.str name) = some k ∧
        (source plan name).key? = k.key? := by
  have hat : filteredAt hooks v.resetFields run₀ name = some y :=
    (hcomes.filteredAt_eq hran.plain hran.nodup hran.keeps hran.distinct).symm.trans hy
  obtain ⟨g, hg, hparam⟩ := Option.bind_eq_some_iff.1 hat
  obtain ⟨x, hx, -⟩ := Option.bind_eq_some_iff.1 hparam
  obtain ⟨f, hf, -⟩ := hran.declared hg
  obtain ⟨k, hk⟩ := exists_origin hran.planned hx
  obtain ⟨hsource, -⟩ := (hran.origin hv hmapping hdirect).1 hf hk
  exact ⟨hat, f, k, hf, hk, hsource⟩

/-- In a run with a direct mapping, the turn of a selected field is the only one that can filter what
comes from the key of its parameter. -/
theorem Ran.eq_of_filtered {name : String} {f : Field} {k : Value}
    (hf : v.fields.lookup (.str name) = some f) (hk : plan.origins.lookup (.str name) = some k)
    {before after : List String} {n : String} {r : Run} {y : Value}
    (hcomes : Comes hooks v.resetFields plan plan.selected run₀ before n after r)
    (hy : filteredAt hooks v.resetFields r n = some y) (hkey : (source plan n).key? = k.key?) :
    n = name := by
  obtain ⟨-, f', k', hf', hk', hsource⟩ := hran.origin_of_filtered hv hmapping hdirect hcomes hy
  exact (hran.origin hv hmapping hdirect).2 hf' hf hk' hk (hsource.symm.trans hkey)

/-- In a run with a direct mapping, the key that the parameter of a selected field comes from gets back
what the filters make of that parameter. -/
theorem Ran.lookup_origin {name : String} (hname : name ∈ plan.selected) {f : Field} {k : Value}
    (hf : v.fields.lookup (.str name) = some f) (hk : plan.origins.lookup (.str name) = some k) :
    ∃ x y, v.params.lookup k = some x ∧ run₀.params.lookup (.str name) = some x ∧
      runFilters hooks.filter v.filters f.filters x = .ok y ∧
        (v.validate hooks targets).validator.params.lookup k = some y := by
  obtain ⟨hsource, x, hvalue, hparam⟩ := (hran.origin hv hmapping hdirect).1 hf hk
  obtain ⟨y, hy⟩ := hran.runFilters_ok hname hf hparam
  refine ⟨x, y, hvalue, hparam, hy, ?_⟩
  have hrestored := hran.restored
  have hmade : (filteredAt hooks v.resetFields run₀ name).getD x = y :=
    filteredAt_getD (v := v.resetFields) (lookup_resetFields hf) hparam hy
  cases hat : filteredAt hooks v.resetFields run₀ name with
  | none =>
    -- The parameter stays, since no other turn filters what comes from its key.
    rw [hat, Option.getD_none] at hmade
    rcases hrestored.changed k with hsame | ⟨before, n, after, r, z, hcomes, hz, hkey, -⟩
    · rw [hsame, hvalue, hmade]
    · obtain rfl := hran.eq_of_filtered hv hmapping hdirect hf hk hcomes hz hkey
      obtain ⟨hsome, -⟩ := hran.origin_of_filtered hv hmapping hdirect hcomes hz
      rw [hat] at hsome
      cases hsome
  | some z =>
    rw [hat, Option.getD_some] at hmade
    obtain ⟨before, after, r, hcomes⟩ := hran.comes hname
    have hz : filteredAt hooks v.resetFields r name = some z := by
      rw [hcomes.filteredAt_eq hran.plain hran.nodup hran.keeps hran.distinct, hat]
    -- A later turn that filters for the same key would be another one of this name.
    have hlast : Last hooks v.resetFields plan plan.selected run₀ before name := by
      intro before' n after' r' z' hcomes' hlonger hz' hkey
      obtain rfl := hran.eq_of_filtered hv hmapping hdirect hf hk hcomes' hz' (hkey.trans hsource)
      rw [hcomes.before_eq hran.nodup hcomes'] at hlonger
      exact absurd hlonger (Nat.lt_irrefl _)
    have hpresent : v.params.contains (source plan name) = true := by
      unfold Entries.contains
      rw [Entries.lookup_congr hsource, hvalue]
      rfl
    rw [← Entries.lookup_congr hsource, ← hmade]
    exact hrestored.kept _ _ _ _ _ hcomes hz hlast hpresent

end

/-- If all checks are built in, no field has a validation callback and the mapping among the targets is
direct, the key of the caller that the parameter of a selected field comes from gets back what the
filters make of that parameter, and all other keys get back their own parameters. -/
theorem validate_params_of_direct {hooks : Hooks} {v : Validator} {targets : List Value}
    {entries : List (Value × Value)} {b : Bool} (hv : Reachable hooks v)
    (hdirectives : v.directives = .builtin)
    (hcallback : ∀ e ∈ v.fields, e.2.validation.isCallback = false)
    (hmapping : mappingTarget? targets = some entries)
    (hdirect : Direct v.aliases v.params entries)
    (h : (v.validate hooks targets).answer = .ok b) :
    ∃ plan run₀,
      Returns (v.resetFields.plan targets) { params := v.params, fields := v.resetFields.fields }
        plan run₀ ∧
      (v.validate hooks targets).validator.params.keys = v.params.keys ∧
      (∀ name ∈ plan.selected, ∀ f k, v.fields.lookup (.str name) = some f →
        plan.origins.lookup (.str name) = some k →
          ∃ x y, v.params.lookup k = some x ∧ run₀.params.lookup (.str name) = some x ∧
            runFilters hooks.filter v.filters f.filters x = .ok y ∧
              (v.validate hooks targets).validator.params.lookup k = some y) ∧
      ∀ k, (∀ name ∈ plan.selected, ∀ f k', v.fields.lookup (.str name) = some f →
          plan.origins.lookup (.str name) = some k' → k'.key? ≠ k.key?) →
        (v.validate hooks targets).validator.params.lookup k = v.params.lookup k := by
  have hconsistent := hv.consistent
  obtain ⟨plan, run₀, run, hran⟩ := exists_ran hconsistent hdirectives hcallback h
  have hrestored := hran.restored
  refine ⟨plan, run₀, hran.planned, hrestored.keys, fun name hname f k hf hk => ?_,
    fun k hother => ?_⟩
  · exact hran.lookup_origin hconsistent hmapping hdirect hname hf hk
  · rcases hrestored.changed k with hsame | ⟨before, name, after, r, y, hcomes, hy, hkey, -⟩
    · exact hsame
    · -- What has changed comes from the key of the selected field whose turn has changed it.
      obtain ⟨-, f, k', hf, hk', hsource⟩ :=
        hran.origin_of_filtered hconsistent hmapping hdirect hcomes hy
      have hname : name ∈ plan.selected := by
        rw [hcomes.split]
        exact List.mem_append_right _ List.mem_cons_self
      exact absurd (hsource.symm.trans hkey) (hother name hname f k' hf hk')

/-- The keys of the caller that the parameters of a run come from, if it can be planned. -/
def origins? (v : Validator) (targets : List Value) : Option (Entries Value) :=
  ((v.resetFields.plan targets).run
    { params := v.params, fields := v.resetFields.fields }).1.toOption.map Plan.origins

/-- The keys that the parameters of a run come from are those of its plan. -/
theorem origins?_eq {v : Validator} {targets : List Value} {plan : Plan} {run₀ : Run}
    (h : Returns (v.resetFields.plan targets)
      { params := v.params, fields := v.resetFields.fields } plan run₀) :
    v.origins? targets = some plan.origins := by
  unfold origins?
  rw [show (v.resetFields.plan targets).run _ = _ from h]
  rfl

/-- A validator for two fields that trim. -/
def pair : Validator where
  options := {}
  directives := .builtin
  filters := .builtin
  children := []
  mixins := []
  aliases := {}
  warnings := []
  fields :=
    [(.str "a", { name := .str "a", directives := [(.str "filters", .list [.str "trim"])] }),
      (.str "b", { name := .str "b", directives := [(.str "filters", .list [.str "trim"])] })]
  params := [(.str "a", .str " 1"), (.str "b", .str " 2"), (.str "c", .str " 3")]

/-- The validator is created from the directives of its fields. -/
theorem reachable_pair : Reachable .none pair :=
  @Reachable.create .none {} (.dict pair.params)
    { fields := .dict (pair.fields.mapValues fun f => .dict f.directives) } pair
    (by unfold Value.KeysDiffer; decide) (by unfold Value.KeysDiffer; decide) rfl

/-- A parameter that supplies another field is trimmed under its own key, and the parameter that has
the name of that field stays. -/
theorem validate_params_renamed :
    ((pair.validate .none [.dict [(.str "c", .str "a")]]).validator.params.lookup (.str "c")).map
        Value.text = some "3" ∧
      (pair.validate .none [.dict [(.str "c", .str "a")]]).validator.params.lookup (.str "a") =
        some (.str " 1") := by
  obtain ⟨b, hb⟩ : ∃ b, (pair.validate .none [.dict [(.str "c", .str "a")]]).answer = .ok b :=
    ⟨true, ok_of_toOption (by decide +kernel)⟩
  obtain ⟨plan, run₀, hplan, -, hsupplied, hother⟩ := validate_params_of_direct reachable_pair rfl
    (by decide) rfl ⟨by decide, by decide⟩ hb
  have hselected : pair.selected? [.dict [(.str "c", .str "a")]] = some ["a"] := by decide +kernel
  have horigin : ((pair.origins? [.dict [(.str "c", .str "a")]]).getD []).lookup (.str "a") =
      some (.str "c") := rfl
  rw [selected?_eq hplan] at hselected
  rw [origins?_eq hplan, Option.getD_some] at horigin
  have hname : plan.selected = ["a"] := Option.some.inj hselected
  constructor
  · obtain ⟨x, y, hx, -, hy, hafter⟩ := hsupplied "a" (by rw [hname]; exact .head _) _ _ rfl horigin
    obtain rfl := Option.some.inj hx
    have htrimmed : (runFilters Hooks.none.filter pair.filters (Field.filters
        { name := .str "a", directives := [(.str "filters", .list [.str "trim"])] })
          (.str " 3")).toOption.map Value.text = some "3" := by decide +kernel
    rw [hafter, ← htrimmed, hy]
    rfl
  · refine hother (.str "a") fun name hmem f k hf hk => ?_
    rw [hname, List.mem_singleton] at hmem
    subst hmem
    obtain rfl := Option.some.inj (horigin.symm.trans hk)
    decide

/-- With any mapping among the targets, the key of the caller that the parameter of a selected field
comes from gets back what the filters make of that parameter. -/
def WritesBackToOrigin : Prop :=
  ∀ {hooks : Hooks} {v : Validator} {entries : Entries Value} {plan : Plan} {run₀ : Run} {b : Bool},
    Reachable hooks v → v.directives = .builtin →
      (∀ e ∈ v.fields, e.2.validation.isCallback = false) → entries.Distinct →
        (v.validate hooks [.dict entries]).answer = .ok b →
          Returns (v.resetFields.plan [.dict entries])
            { params := v.params, fields := v.resetFields.fields } plan run₀ →
            ∀ name ∈ plan.selected, ∀ f k s y, v.fields.lookup (.str name) = some f →
              plan.origins.lookup (.str name) = some k → v.params.lookup k = some (.str s) →
                runFilters hooks.filter v.filters f.filters (.str s) = .ok y →
                  (v.validate hooks [.dict entries]).validator.params.lookup k = some y

/-- A mapping that swaps two parameters writes what is trimmed of the one under the key of the other. -/
theorem not_writesBackToOrigin : ¬WritesBackToOrigin := by
  intro h
  have hswap : (pair.validate .none [.dict [(.str "a", .str "b"), (.str "b", .str "a")]]).answer =
      .ok true := ok_of_toOption (by decide +kernel)
  obtain ⟨plan, run₀, run, hran⟩ := exists_ran reachable_pair.consistent rfl (by decide) hswap
  have hselected : pair.selected? [.dict [(.str "a", .str "b"), (.str "b", .str "a")]] =
      some ["b", "a"] := by decide +kernel
  have horigin : ((pair.origins? [.dict [(.str "a", .str "b"), (.str "b", .str "a")]]).getD
      []).lookup (.str "a") = some (.str "a") := rfl
  rw [selected?_eq hran.planned] at hselected
  rw [origins?_eq hran.planned, Option.getD_some] at horigin
  have hname : "a" ∈ plan.selected := by
    rw [Option.some.inj hselected]
    decide
  have htrim : (runFilters Hooks.none.filter pair.filters (Field.filters
      { name := .str "a", directives := [(.str "filters", .list [.str "trim"])] })
        (.str " 1")).toOption.map Value.text = some "1" := by decide +kernel
  obtain ⟨y, hy, htrimmed⟩ := Option.map_eq_some_iff.1 htrim
  have hafter := h reachable_pair rfl (by decide) (by decide) hswap hran.planned "a" hname _ _ " 1" y
    rfl horigin rfl (ok_of_toOption hy)
  have htext : ((pair.validate .none [.dict [(.str "a", .str "b"),
      (.str "b", .str "a")]]).validator.params.lookup (.str "a")).map Value.text = some " 1" := by
    decide +kernel
  rw [hafter, Option.map_some, htrimmed] at htext
  exact absurd htext (by decide)

end Validator

end ParamCheck
