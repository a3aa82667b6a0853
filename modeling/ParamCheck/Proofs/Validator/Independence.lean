import ParamCheck.Proofs.Alias.Moves
import ParamCheck.Proofs.Validator.Order

/-!
# What a run says of one field

The outcome of a run for a field goes by few of the parameters: those of the field, of the names
that its checks read, and of the aliases of both (`Validator.concerns`). Other parameters decide
which other fields are selected, but the selected names are always those of one list that is filtered
(`Validator.selected_eq_filter`), so that the field and the fields that it refers to have their turns in
the same order (`mem_before_of_filter`). There is one exception: an alias that a check reads stays or
goes with the aliases of a field that the check does not name. It goes if that field takes one, which
it does not if the last alias that is present is no name (`AliasMap.Stays`,
`Validator.not_independent`).
-/

namespace ParamCheck

/-! ## Positions in filtered lists -/

/-- What stands around an entry of a filtered list was around it before. -/
theorem exists_split_of_filter {α : Type} {l before after : List α} {x : α} {p : α → Bool}
    (h : l.filter p = before ++ x :: after) :
    ∃ before₀ after₀, l = before₀ ++ x :: after₀ ∧ before = before₀.filter p := by
  obtain ⟨l₁, l₂, rfl, rfl, hrest⟩ := List.filter_eq_append_iff.1 h
  obtain ⟨l₃, l₄, rfl, hnone, -, -⟩ := List.filter_eq_cons_iff.1 hrest
  refine ⟨l₁ ++ l₃, l₄, by rw [List.append_assoc], ?_⟩
  have hgone : l₃.filter p = [] := List.filter_eq_nil_iff.2 hnone
  rw [List.filter_append, hgone, List.append_nil]

/-- Which entries stand before one that is there depends, of the entries that a list without
repetitions is filtered for, only on those. -/
theorem mem_before_of_filter {α : Type} {l before after before' after' : List α} {x y : α}
    {p q : α → Bool} (hl : l.Nodup) (h : l.filter p = before ++ x :: after)
    (h' : l.filter q = before' ++ x :: after') (hy : p y = q y) : y ∈ before ↔ y ∈ before' := by
  obtain ⟨l₁, l₂, rfl, rfl⟩ := exists_split_of_filter h
  obtain ⟨l₃, l₄, hsplit, rfl⟩ := exists_split_of_filter h'
  -- The entry stands at one place in the list.
  obtain ⟨rfl, -⟩ := Validator.eq_of_split hl rfl hsplit
  rw [List.mem_filter, List.mem_filter, hy]

namespace Validator

variable {hooks : Hooks} {v : Validator} {ts : List String} {plan : Plan} {run run₀ : Run}

/-! ## Plans of targets that are texts -/

/-- What is planned for targets that are texts. -/
theorem plan_of_texts (hts : ts ≠ []) (h : Returns (v.plan (ts.map .str)) run plan run₀) :
    ∃ parsed, (ts.map Value.str ++ v.queue).mapM Toggle.ofValue = .ok parsed ∧
      plan.toggles = togglesOf parsed ∧
      run₀.params = (v.aliases.move run.params).1 ∧
      Value.unique (parsed.map (·.1) ++ (v.aliases.move run.params).2.keys) =
        plan.selected.map .str := by
  obtain ⟨params, sources, requested, parsed, hplan⟩ := plan_eq h
  have hrequest := hplan.requested_eq
  rw [request_map] at hrequest
  obtain ⟨rfl, hrest⟩ := Prod.mk.inj (Except.ok.inj hrequest)
  obtain ⟨rfl, rfl⟩ := Prod.mk.inj hrest
  -- What is moved does not depend on what the entries are tagged with.
  have hmove := AliasMap.move_mapValues (·.2) v.aliases (tagged run.params)
  rw [mapValues_tagged] at hmove
  have hparsed := hplan.parsed_eq
  -- There is a name for the first target.
  have hsome : (!(parsed.map (·.1)).isEmpty) = true := by
    obtain ⟨t, rest, rfl⟩ := List.exists_cons_of_ne_nil hts
    rw [List.map_cons, List.cons_append, List.mapM_cons] at hparsed
    obtain ⟨first, -, hparsed⟩ := bind_eq_ok_iff.1 hparsed
    obtain ⟨others, -, hparsed⟩ := bind_eq_ok_iff.1 hparsed
    obtain rfl := Except.ok.inj hparsed
    rfl
  have hselected := hplan.selected_eq
  rw [if_pos hsome] at hselected
  refine ⟨parsed, hparsed, hplan.toggles_eq, ?_, ?_⟩
  · rw [hplan.params_eq, hmove]
  · rw [hmove]
    exact hselected

/-- The names that can be selected together with given ones: these, and then the fields that have
aliases. -/
def selectable (m : AliasMap) (names : List Value) : List Value :=
  Value.unique names ++ m.fields.keys.filter fun k => !(Value.unique names).any k.same

/-- A name is selected together with given ones: it is one of them, or its field takes an alias. -/
def selects (m : AliasMap) (names : List Value) (params : Entries Value) (k : Value) : Bool :=
  (Value.unique names).any k.same || (AliasMap.source? m.fields params k).isSome

section

variable {declared : Entries Field} {m : AliasMap} (hm : AliasMap.Fits declared m)
  (hd : declared.Distinct)

include hm hd

/-- No name can be selected twice. -/
theorem nodup_selectable (names : List Value) : (selectable m names).Nodup := by
  have hfields : m.fields.keys.Nodup := (hm.apart hd).distinct.nodup_keys
  have hnames : (Value.unique names).Nodup := Report.Unrepeated.nodup (Value.pairwise_unique names)
  refine List.nodup_append.2 ⟨hnames, hfields.filter _, ?_⟩
  rintro k hk l hl rfl
  -- A field that is one of the names is left out.
  have hany : (Value.unique names).any k.same = true :=
    List.any_eq_true.2 ⟨k, hk, k.same_self⟩
  have hnew := (List.mem_filter.1 hl).2
  rw [hany] at hnew
  cases hnew

/-- Whatever the parameters are, the selected names are those of one list that is filtered. -/
theorem selected_eq_filter {names : List Value} {params : Entries Value} {selected : List String}
    (h : Value.unique (names ++ (m.move params).2.keys) = selected.map .str) :
    selected.map .str = (selectable m names).filter (selects m names params) := by
  have hkeys : (m.move params).2.keys =
      m.fields.keys.filter fun k => (AliasMap.source? m.fields params k).isSome := by
    rw [AliasMap.move_snd hm hd, AliasMap.keys_moves (hm.apart hd).distinct]
  have hunrepeated : Report.Unrepeated (m.move params).2.keys := by
    obtain ⟨texts, htexts⟩ := Value.exists_texts_of_unique h
    obtain ⟨-, moved, -, -, hmoved⟩ := List.append_eq_map_iff.1 htexts
    have hnodup : (m.move params).2.keys.Nodup := by
      rw [hkeys]
      exact (hm.apart hd).distinct.nodup_keys.filter _
    rw [← hmoved] at hnodup ⊢
    exact unrepeated_map
      ((List.pairwise_map.1 hnodup).imp fun hne heq => hne (congrArg Value.str heq))
  have hgiven : (Value.unique names).filter (selects m names params) = Value.unique names := by
    refine List.filter_eq_self.2 fun k hk => ?_
    unfold selects
    rw [List.any_eq_true.2 ⟨k, hk, k.same_self⟩, Bool.true_or]
  calc selected.map .str
    _ = Value.unique (names ++ (m.move params).2.keys) := h.symm
    _ = Report.addAll (Value.unique names) (m.move params).2.keys := by
      rw [← Report.addAll_nil, ← Report.addAll_nil, Report.addAll_append]
    _ = Value.unique names ++
          (m.move params).2.keys.filter fun k => !(Value.unique names).any k.same :=
      Report.addAll_eq_append_filter hunrepeated _
    _ = Value.unique names ++
          (m.fields.keys.filter fun k => !(Value.unique names).any k.same).filter
            (selects m names params) := by
      rw [hkeys, List.filter_comm]
      refine congrArg (Value.unique names ++ ·) (List.filter_congr fun k hk => ?_)
      -- A field that is not one of the names is selected if it takes an alias.
      have hnew := (List.mem_filter.1 hk).2
      rw [Bool.not_eq_true'] at hnew
      unfold selects
      rw [hnew, Bool.false_or]
    _ = (selectable m names).filter (selects m names params) := by
      unfold selectable
      rw [List.filter_append, hgiven]

variable {names : List Value} {params params' : Entries Value} {selected selected' : List String}
  (h : Value.unique (names ++ (m.move params).2.keys) = selected.map .str)
  (h' : Value.unique (names ++ (m.move params').2.keys) = selected'.map .str) {other : String}
  (hother : selects m names params (.str other) = selects m names params' (.str other))

include h h' hother

/-- Which parameters there are makes no difference to whether a name is selected if it makes none to
the aliases of that name. -/
theorem mem_selected_congr : other ∈ selected ↔ other ∈ selected' := by
  have hmem : ∀ {l : List String}, other ∈ l ↔ Value.str other ∈ l.map .str :=
    (List.mem_map_of_injective fun _ _ => Value.str.inj).symm
  rw [hmem, hmem, selected_eq_filter hm hd h, selected_eq_filter hm hd h', List.mem_filter,
    List.mem_filter, hother]

/-- Nor does it to whether it is selected before another one. -/
theorem mem_before_congr {before after before' after' : List String} {name : String}
    (hsplit : selected = before ++ name :: after)
    (hsplit' : selected' = before' ++ name :: after') : other ∈ before ↔ other ∈ before' := by
  have hmem : ∀ {l : List String}, other ∈ l ↔ Value.str other ∈ l.map .str :=
    (List.mem_map_of_injective fun _ _ => Value.str.inj).symm
  have hfilter := (selected_eq_filter hm hd h).symm
  have hfilter' := (selected_eq_filter hm hd h').symm
  rw [hsplit, List.map_append, List.map_cons] at hfilter
  rw [hsplit', List.map_append, List.map_cons] at hfilter'
  rw [hmem, hmem]
  exact mem_before_of_filter (nodup_selectable hm hd names) hfilter hfilter' hother

end

/-! ## What a field goes by -/

/-- The names whose parameters the checks of a field read. -/
def readBy (v : Validator) (f : Field) : List Value :=
  f.directives.flatMap fun e =>
    match v.directives.check? e.1 with
    | some (.builtin c) => c.reads e.2
    | _ => []

/-- The names that concern a field: its own name, those that its checks read, and the aliases of
both. -/
def concerns (v : Validator) (name : Value) (f : Field) : List Value :=
  (name :: v.readBy f).flatMap v.aliases.family

/-- What a check of a field reads is read by the field. -/
theorem mem_readBy {f : Field} {e : Value × Value} (he : e ∈ f.directives) {c : BuiltinCheck}
    (hc : v.directives.check? e.1 = some (.builtin c)) {k : Value} (hk : k ∈ c.reads e.2) :
    k ∈ v.readBy f := by
  refine List.mem_flatMap.2 ⟨e, he, ?_⟩
  rw [hc]
  exact hk

/-- The state in which a turn leaves a field goes by the parameters that the field reads. -/
theorem turned_of_agree {f : Field} {plan plan' : Plan} {params params' : Entries Value}
    (htoggles : plan.toggles = plan'.toggles) (name : String) (x : Value)
    (hread : ∀ k ∈ v.readBy f, params.lookup k = params'.lookup k) :
    turned hooks.search v.resetFields plan f.reset name x params =
      turned hooks.search v.resetFields plan' f.reset name x params' := by
  have hexpected : ∀ toggle : Toggle,
      { f.reset with toggle }.expected hooks.search v.directives x ⟨params, v.resetFields.fields⟩ =
        { f.reset with toggle }.expected hooks.search v.directives x ⟨params', v.resetFields.fields⟩ := by
    intro toggle
    refine Field.expected_of_alike (fun e he c hc k hk => ?_) x _
    rw [hread k (mem_readBy he hc hk)]
    exact .refl c _
  unfold turned
  rw [htoggles]
  exact congrArg (Field.recorded _) (hexpected _)

section

variable {P P' : Entries Value} {plan' : Plan} {run' run₀' : Run} {name : Value} {f : Field}
  (hv : v.Consistent) (hts : ts ≠ []) (hf : v.fields.lookup name = some f)
  (hagree : ∀ k ∈ v.concerns name f, P.lookup k = P'.lookup k)
  (hstays : ∀ k ∈ v.readBy f, P.contains k = true → (v.aliases.Stays P k ↔ v.aliases.Stays P' k))
  (hran : Ran hooks (v.withParams P) (ts.map .str) plan run₀ run)
  (hran' : Ran hooks (v.withParams P') (ts.map .str) plan' run₀' run')

include hv hts hf hagree hstays hran hran'

/-- Two runs with parameters that agree on what concerns a field leave it in the same state. -/
theorem Ran.lookup_of_agree : run.fields.lookup name = run'.fields.lookup name := by
  have hfits := hv.fits
  have hd := hv.fields_distinct
  obtain ⟨parsed, hparsed, htoggles, hparams, hselected⟩ := plan_of_texts hts hran.planned
  obtain ⟨parsed', hparsed', htoggles', hparams', hselected'⟩ := plan_of_texts hts hran'.planned
  obtain rfl : parsed = parsed' := Except.ok.inj (hparsed.symm.trans hparsed')
  change run₀.params = (v.aliases.move P).1 at hparams
  change run₀'.params = (v.aliases.move P').1 at hparams'
  -- The names that concern the field find the same parameters and are selected alike.
  have hfamily : ∀ k ∈ name :: v.readBy f, ∀ a ∈ v.aliases.family k, P.lookup a = P'.lookup a :=
    fun k hk a ha => hagree a (List.mem_flatMap.2 ⟨k, hk, ha⟩)
  have hselects : ∀ k ∈ name :: v.readBy f,
      selects v.aliases (parsed.map (·.1)) P k = selects v.aliases (parsed.map (·.1)) P' k := by
    intro k hk
    unfold selects
    rw [AliasMap.source?_of_family fun a ha => ?_]
    unfold Entries.contains
    rw [hfamily k hk a ha]
  have hlookup : ∀ k ∈ v.readBy f, run₀.params.lookup k = run₀'.params.lookup k := by
    intro k hk
    rw [hparams, hparams']
    exact AliasMap.lookup_move_congr hfits hd (hfamily k (List.mem_cons_of_mem _ hk)) (hstays k hk)
  have hown : run₀.params.lookup name = run₀'.params.lookup name := by
    rw [hparams, hparams']
    refine AliasMap.lookup_move_congr hfits hd (hfamily name List.mem_cons_self) fun _ => ?_
    exact iff_of_false (hfits.not_stays hf P) (hfits.not_stays hf P')
  have hmem : ∀ n, .str n = name → (n ∈ plan.selected ↔ n ∈ plan'.selected) := by
    rintro n rfl
    exact mem_selected_congr hfits hd hselected hselected' (hselects _ List.mem_cons_self)
  by_cases hturn : ∃ n ∈ plan.selected, .str n = name
  · obtain ⟨n, hn, rfl⟩ := hturn
    obtain ⟨before, after, hsplit⟩ := List.append_of_mem hn
    obtain ⟨before', after', hsplit'⟩ := List.append_of_mem ((hmem n rfl).1 hn)
    obtain ⟨x, hx, hfield⟩ := hran.lookup_selected hsplit hf
    obtain ⟨x', hx', hfield'⟩ := hran'.lookup_selected hsplit' hf
    rw [hown] at hx
    obtain rfl := Except.ok.inj (hx.symm.trans hx')
    -- The turns of the names that are read come before the field's own in both runs or in neither.
    have hturns : ∀ k ∈ v.readBy f,
        checkedParam hooks v (before ++ [n]) k = checkedParam hooks v (before' ++ [n]) k := by
      intro k hk
      cases k with
      | str other =>
        have hbefore : other ∈ before ↔ other ∈ before' :=
          mem_before_congr hfits hd hselected hselected' (hselects _ (List.mem_cons_of_mem _ hk))
            hsplit hsplit'
        unfold checkedParam
        simp only [List.mem_append, hbefore]
      | _ => rfl
    have hread : ∀ k ∈ v.readBy f,
        (checkedParams hooks v (before ++ [n]) run₀.params).lookup k =
          (checkedParams hooks v (before' ++ [n]) run₀'.params).lookup k := by
      intro k hk
      rw [lookup_checkedParams, lookup_checkedParams, hlookup k hk, hturns k hk]
    calc run.fields.lookup (.str n)
      _ = some (turned hooks.search v.resetFields plan f.reset n x
            (checkedParams hooks v (before ++ [n]) run₀.params)) := hfield
      _ = some (turned hooks.search v.resetFields plan' f.reset n x
            (checkedParams hooks v (before' ++ [n]) run₀'.params)) :=
        congrArg some (turned_of_agree (htoggles.trans htoggles'.symm) n x hread)
      _ = run'.fields.lookup (.str n) := hfield'.symm
  · -- The field has no turn in either run.
    have hother : ∀ n ∈ plan.selected, (Value.str n).key? ≠ name.key? :=
      fun n hn hkey => hturn ⟨n, hn, (Value.eq_str_of_key? hkey.symm).symm⟩
    have hother' : ∀ n ∈ plan'.selected, (Value.str n).key? ≠ name.key? := by
      intro n hn hkey
      have hname := (Value.eq_str_of_key? hkey.symm).symm
      exact hother n ((hmem n hname).2 hn) hkey
    rw [hran.lookup_of_no_turn hother, hran'.lookup_of_no_turn hother']
    rfl

end

/-- Take any validator without validation callbacks whose checks are built in, and two runs of it for
targets that are texts. If their parameters agree on what concerns a field, and if an alias that is
present and that a check of the field reads stays in both runs or in neither, then both runs leave
the field in the same state, whatever the other parameters are. -/
theorem validate_lookup_of_agree {P P' : Entries Value} {name : Value} {f : Field} {b b' : Bool}
    (hv : Reachable hooks v) (hdirectives : v.directives = .builtin)
    (hcallback : ∀ e ∈ v.fields, e.2.validation.isCallback = false) (hP : P.Distinct)
    (hP' : P'.Distinct) (hts : ts ≠ []) (hf : v.fields.lookup name = some f)
    (hagree : ∀ k ∈ v.concerns name f, P.lookup k = P'.lookup k)
    (hstays : ∀ k ∈ v.readBy f, P.contains k = true →
      (v.aliases.Stays P k ↔ v.aliases.Stays P' k))
    (h : ((v.withParams P).validate hooks (ts.map .str)).answer = .ok b)
    (h' : ((v.withParams P').validate hooks (ts.map .str)).answer = .ok b') :
    ∃ g, ((v.withParams P).validate hooks (ts.map .str)).validator.fields.lookup name = some g ∧
      ((v.withParams P').validate hooks (ts.map .str)).validator.fields.lookup name = some g := by
  have hconsistent := hv.consistent
  obtain ⟨plan, run₀, run, hran⟩ :=
    exists_ran (hconsistent.withParams hP) hdirectives hcallback h
  obtain ⟨plan', run₀', run', hran'⟩ :=
    exists_ran (hconsistent.withParams hP') hdirectives hcallback h'
  have hsame := hran.lookup_of_agree hconsistent hts hf hagree hstays hran'
  rw [hran.fields_after, hran'.fields_after, ← hsame]
  -- The field is still there after the run.
  obtain ⟨g, hg, -⟩ : ∃ g, run.fields.lookup name = some g ∧ g.reset = f.reset := by
    have hkeeps : run.fields.mapValues Field.reset = v.fields.mapValues Field.reset :=
      hran.keeps_after
    have hdeclared : (run.fields.lookup name).map Field.reset = some f.reset := by
      rw [← Entries.lookup_mapValues, hkeeps, Entries.lookup_mapValues, hf]
      rfl
    exact Option.map_eq_some_iff.1 hdeclared
  exact ⟨g, hg, hg⟩

/-- A validator for a field that has an alias, one that is to match that alias, and another one that
has an alias and trims. -/
def forwarded : Validator where
  options := { policy := { ignoreUnknown := true } }
  directives := .builtin
  filters := .builtin
  children := []
  mixins := []
  aliases :=
    { fields := [(.str "code", [.str "old", .null]), (.str "mail", [.str "post"])]
      aliases := [(.str "old", .str "code"), (.null, .str "code"), (.str "post", .str "mail")] }
  warnings := []
  fields :=
    [(.str "code",
        { name := .str "code"
          directives := [(.str "alias", .list [.str "old", .null]), (.str "filters", .list [])] }),
      (.str "again",
        { name := .str "again"
          directives := [(.str "matches", .str "old"), (.str "filters", .list [])] }),
      (.str "mail",
        { name := .str "mail"
          directives := [(.str "alias", .str "post"), (.str "filters", .list [.str "trim"])] })]

/-- The validator is created from the directives of its fields. -/
theorem reachable_forwarded : Reachable .none forwarded :=
  @Reachable.create .none { policy := { ignoreUnknown := true } } .null
    { fields := .dict (forwarded.fields.mapValues fun f => .dict f.directives) } forwarded
    trivial (by unfold Value.KeysDiffer; decide) rfl

/-- What concerns the field that is to match the alias is that alias and its own name. -/
theorem agree_again {f : Field} (hf : forwarded.fields.lookup (.str "again") = some f)
    {P P' : Entries Value} (hagain : P.lookup (.str "again") = P'.lookup (.str "again"))
    (hold : P.lookup (.str "old") = P'.lookup (.str "old")) :
    ∀ k ∈ forwarded.concerns (.str "again") f, P.lookup k = P'.lookup k := by
  obtain rfl := Option.some.inj hf
  intro k hk
  have hmem : k ∈ [Value.str "again", .str "old"] := hk
  rcases List.mem_cons.1 hmem with rfl | hmem
  · exact hagain
  · obtain rfl := List.mem_singleton.1 hmem
    exact hold

/-- A parameter that moves, is filtered and comes first makes no difference to the field. -/
theorem validate_lookup_again :
    ∃ g : Field,
      ((forwarded.withParams [(.str "old", .str "1"), (.str "again", .str "1")]).validate .none
        [.str "again"]).validator.fields.lookup (.str "again") = some g ∧
      ((forwarded.withParams [(.str "post", .str " x "), (.str "again", .str "1"),
        (.str "old", .str "1")]).validate .none [.str "again"]).validator.fields.lookup
          (.str "again") = some g := by
  refine @validate_lookup_of_agree .none forwarded ["again"] _ _ (.str "again") _ false false
    reachable_forwarded rfl (by decide) (by decide) (by decide) (by decide) rfl
    (agree_again rfl rfl rfl) ?_ (ok_of_toOption (by decide +kernel))
    (ok_of_toOption (by decide +kernel))
  -- The alias goes in both runs.
  intro k hk
  obtain rfl : k = .str "old" := List.mem_singleton.1 hk
  decide

/-- In runs with built-in checks, without validation callbacks, for targets that are texts and
passing over names that are no fields, parameters that agree on what concerns a field leave it with
the same value and the same messages. -/
def Independent : Prop :=
  ∀ {hooks : Hooks} {v : Validator} {P P' : Entries Value} {ts : List String} {name : Value}
    {f g g' : Field} {b b' : Bool},
    Reachable hooks v → v.options.policy.ignoreUnknown = true → v.directives = .builtin →
      (∀ e ∈ v.fields, e.2.validation.isCallback = false) → P.Distinct → P'.Distinct → ts ≠ [] →
        v.fields.lookup name = some f → (∀ k ∈ v.concerns name f, P.lookup k = P'.lookup k) →
          ((v.withParams P).validate hooks (ts.map .str)).answer = .ok b →
            ((v.withParams P').validate hooks (ts.map .str)).answer = .ok b' →
              ((v.withParams P).validate hooks (ts.map .str)).validator.fields.lookup name =
                some g →
                ((v.withParams P').validate hooks (ts.map .str)).validator.fields.lookup name =
                  some g' →
                  g.value = g'.value ∧ g.errors = g'.errors

/-- An alias that is no name can make a difference: if it is present, the other alias stays where the
check of a field finds it. -/
theorem not_independent : ¬Independent := by
  intro h
  let P : Entries Value := [(.str "old", .str "1"), (.null, .str "2"), (.str "again", .str "1")]
  let P' : Entries Value := [(.str "old", .str "1"), (.str "again", .str "1")]
  have hanswer : ((forwarded.withParams P).validate .none [.str "again"]).answer = .ok true :=
    ok_of_toOption (by decide +kernel)
  have hanswer' : ((forwarded.withParams P').validate .none [.str "again"]).answer = .ok false :=
    ok_of_toOption (by decide +kernel)
  have hcount : (((forwarded.withParams P).validate .none [.str "again"]).validator.fields.lookup
      (.str "again")).map (·.errors.length) = some 0 := by decide +kernel
  have hcount' : (((forwarded.withParams P').validate .none [.str "again"]).validator.fields.lookup
      (.str "again")).map (·.errors.length) = some 1 := by decide +kernel
  obtain ⟨g, hg, hnone⟩ := Option.map_eq_some_iff.1 hcount
  obtain ⟨g', hg', hone⟩ := Option.map_eq_some_iff.1 hcount'
  -- The two sets of parameters agree on the field and on the alias.
  obtain ⟨-, herrors⟩ := @h .none forwarded P P' ["again"] (.str "again") _ g g' true false
    reachable_forwarded rfl rfl (by decide) (by decide) (by decide) (by decide) rfl
    (agree_again rfl rfl rfl) hanswer hanswer' hg hg'
  rw [herrors, hone] at hnone
  cases hnone

end Validator

end ParamCheck
