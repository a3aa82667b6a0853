import ParamCheck.Proofs.Validator.Answer
import ParamCheck.Proofs.Validator.Order

/-!
# Optional, declared and required

A target asks for its field with a sign that makes it required, with one that makes it optional, or
without a sign as it is declared. If all checks are built in and there is no validation callback, the
sign matters for the messages of that field only, and of two signs the laxer one has no messages or the
same ones (`Field.expected_of_laxer`). So what passes when it is required passes as it is declared, and
what passes as it is declared passes when it is optional (`Validator.validate_signs`).
-/

namespace ParamCheck

/-- A toggle asks for no more than another one does, whatever is declared. -/
def Toggle.Laxer (t t' : Toggle) : Prop := t = t' ∨ t = .optional ∨ t' = .required

/-- A toggle asks for no more than itself. -/
theorem Toggle.Laxer.refl (t : Toggle) : t.Laxer t := .inl rfl

namespace Field

variable {t t' : Toggle}

/-- A field that is required with a toggle is required with one that asks for more. -/
theorem isRequired_of_laxer (h : t.Laxer t') (f : Field)
    (hrequired : { f with toggle := t }.isRequired = true) :
    { f with toggle := t' }.isRequired = true := by
  rcases h with rfl | rfl | rfl
  · exact hrequired
  · cases hrequired
  · rfl

/-- With the laxer toggle no messages are expected, or those that are expected with the other one. -/
theorem expected_of_laxer (h : t.Laxer t') (search : PatternSearch) (table : DirectiveTable) (value : Value)
    (f : Field) (scene : Scene) :
    { f with toggle := t }.expected search table value scene = [] ∨
      { f with toggle := t }.expected search table value scene =
        { f with toggle := t' }.expected search table value scene := by
  have hfailures : failures search table value { f with toggle := t } scene f.directives =
      failures search table value { f with toggle := t' } scene f.directives :=
    failures_congr (f := { f with toggle := t }) (g := { f with toggle := t' }) search table value rfl
      (⟨rfl, fun _ => rfl⟩ : scene.Alike scene) _
  have hhandle : ({ f with toggle := t } : Field).handle = { f with toggle := t' }.handle := rfl
  unfold expected
  rw [hfailures, hhandle]
  cases hlax : ({ f with toggle := t } : Field).isRequired with
  | true =>
    rw [isRequired_of_laxer h f hlax]
    exact .inr rfl
  | false =>
    by_cases hvalue : value.hasValue = true
    · -- A value is not blank, so that it is checked with both toggles.
      have hblank : value.isBlank = false := by
        unfold Value.hasValue at hvalue
        split at hvalue
        · cases hvalue
        · simpa using hvalue
      right
      simp [hvalue, hblank]
    · left
      simp [hvalue]

end Field

namespace Validator

/-! ## The toggles of a plan -/

variable {t t' : Toggle} (before after : List (Value × Toggle)) {name : Value}

/-- The sign of a name matters for that name only. -/
theorem lookup_togglesOf_of_ne {k : Value} (hk : name.key? ≠ k.key?) :
    (togglesOf (before ++ (name, t) :: after)).lookup k =
      (togglesOf (before ++ (name, t') :: after)).lookup k := by
  simp [lookup_togglesOf, hk]

/-- If one of the signs of a name is laxer, the last one is. -/
theorem laxer_togglesOf (h : t.Laxer t') :
    (((togglesOf (before ++ (name, t) :: after)).lookup name).getD .declared).Laxer
      (((togglesOf (before ++ (name, t') :: after)).lookup name).getD .declared) := by
  simp only [lookup_togglesOf, List.reverse_append, List.reverse_cons, List.append_assoc,
    List.find?_append, Option.map_or]
  cases after.reverse.find? fun p => p.1.key? = name.key? ∧ p.2 ≠ .declared with
  | some p => exact .refl _
  | none =>
    rcases h with rfl | rfl | rfl
    · exact .refl _
    · exact .inr (.inl (by simp))
    · exact .inr (.inr (by simp))

/-! ## Plans for another sign -/

variable {α : Type} {s s' : String}

/-- Targets that are read as texts are texts. -/
theorem targetTexts_ok {vs : List Value} {ts : List String} (h : targetTexts vs = .ok ts) :
    vs = ts.map .str := by
  induction vs generalizing ts with
  | nil =>
    obtain rfl := Except.ok.inj h
    rfl
  | cons v rest ih =>
    cases v with
    | str s =>
      rw [targetTexts] at h
      obtain ⟨ts', hrest, rfl⟩ := map_eq_ok_iff.1 h
      rw [List.map_cons, ← ih hrest]
    | _ => cases h

/-- A text in place of another one leaves the mapping among the targets. -/
theorem mappingTarget?_str (s s' : String) (vs ws : List Value) :
    mappingTarget? (vs ++ .str s :: ws) = mappingTarget? (vs ++ .str s' :: ws) := by
  induction vs with
  | nil => rfl
  | cons v rest ih =>
    cases v with
    | dict entries => rfl
    | _ => exact ih

/-- Targets of which one is another text ask for that text, or there is a mapping that counts instead. -/
theorem request_str (s' : String) {vs ws : List Value} {params : Entries α}
    {r : Entries α × Entries Value × List String} (h : request (vs ++ .str s :: ws) params = .ok r) :
    request (vs ++ .str s' :: ws) params = .ok r ∨
      ∃ ts us, r = (params, [], ts ++ s :: us) ∧
        request (vs ++ .str s' :: ws) params = .ok (params, [], ts ++ s' :: us) := by
  have hmapping := mappingTarget?_str s s' vs ws
  unfold request at h ⊢
  rw [← hmapping]
  cases hentries : mappingTarget? (vs ++ .str s :: ws) with
  | some entries =>
    rw [hentries] at h
    exact .inl h
  | none =>
    rw [hentries] at h
    obtain ⟨texts, htexts, rfl⟩ := map_eq_ok_iff.1 h
    obtain ⟨ts, others, rfl, rfl, hothers⟩ := List.map_eq_append_iff.1 (targetTexts_ok htexts).symm
    obtain ⟨s, us, rfl, hs, rfl⟩ := List.map_eq_cons_iff.1 hothers
    obtain rfl := Value.str.inj hs
    refine .inr ⟨ts, us, rfl, ?_⟩
    have hsplit : ts.map Value.str ++ .str s' :: us.map .str = (ts ++ s' :: us).map .str := by
      rw [List.map_append, List.map_cons]
    rw [hsplit, targetTexts_map]
    rfl

/-- One of the targets that are read can be another text. -/
theorem mapM_ofValue_str {vs ws : List Value} {parsed : List (Value × Toggle)}
    (h : (vs ++ .str s :: ws).mapM Toggle.ofValue = .ok parsed) :
    ∃ before after, parsed = before ++ (.str (Toggle.parse s).1, (Toggle.parse s).2) :: after ∧
      ∀ s' : String, (vs ++ .str s' :: ws).mapM Toggle.ofValue =
        .ok (before ++ (.str (Toggle.parse s').1, (Toggle.parse s').2) :: after) := by
  rw [List.mapM_append, List.mapM_cons] at h
  obtain ⟨before, hbefore, h⟩ := bind_eq_ok_iff.1 h
  obtain ⟨rest, hrest, h⟩ := bind_eq_ok_iff.1 h
  obtain rfl := Except.ok.inj h
  obtain ⟨p, hp, hrest⟩ := bind_eq_ok_iff.1 hrest
  obtain ⟨after, hafter, hrest⟩ := bind_eq_ok_iff.1 hrest
  obtain rfl := Except.ok.inj hrest
  obtain rfl := Except.ok.inj hp
  refine ⟨before, after, rfl, fun s' => ?_⟩
  rw [List.mapM_append, List.mapM_cons, hbefore, hafter]
  rfl

/-- A plan for targets of which one gives its name another sign differs in the toggle of that name
only, and if the one sign is laxer, so is the toggle. -/
theorem plan_sign {v : Validator} {run run' : Run} {plan : Plan} {vs ws : List Value}
    (hname : (Toggle.parse s').1 = (Toggle.parse s).1)
    (hlax : (Toggle.parse s).2.Laxer (Toggle.parse s').2)
    (h : Returns (v.plan (vs ++ .str s :: ws)) run plan run') :
    ∃ toggles, Returns (v.plan (vs ++ .str s' :: ws)) run { plan with toggles } run' ∧
      (∀ k : Value, (Value.str (Toggle.parse s).1).key? ≠ k.key? →
        plan.toggles.lookup k = toggles.lookup k) ∧
      ((plan.toggles.lookup (.str (Toggle.parse s).1)).getD .declared).Laxer
        ((toggles.lookup (.str (Toggle.parse s).1)).getD .declared) := by
  obtain ⟨params, sources, requested, parsed, hrequest, hparsed, hselect⟩ := returns_plan_iff.1 h
  rcases request_str s' hrequest with hrequest' | ⟨ts, us, heq, hrequest'⟩
  · -- A mapping counts instead of all texts.
    exact ⟨plan.toggles, returns_plan_iff.2 ⟨_, _, _, _, hrequest', hparsed, hselect⟩,
      fun _ _ => rfl, .refl _⟩
  · obtain ⟨rfl, hrest⟩ := Prod.mk.inj heq
    obtain ⟨rfl, rfl⟩ := Prod.mk.inj hrest
    have hsplit : ∀ s : String, (ts ++ s :: us).map Value.str ++ v.queue =
        ts.map .str ++ .str s :: (us.map .str ++ v.queue) := by
      intro s
      rw [List.map_append, List.map_cons, List.append_assoc, List.cons_append]
    rw [hsplit] at hparsed
    obtain ⟨before, after, rfl, hparsed'⟩ := mapM_ofValue_str hparsed
    -- The names are the same, so that the same fields are selected.
    have hnames : (before ++ (Value.str (Toggle.parse s').1, (Toggle.parse s').2) :: after).map (·.1) =
        (before ++ (Value.str (Toggle.parse s).1, (Toggle.parse s).2) :: after).map (·.1) := by
      rw [List.map_append, List.map_append, List.map_cons, List.map_cons, hname]
    have hsigns := v.select_signs (congrArg List.isEmpty hnames)
      (fun keys => by rw [hnames]) (tagged run.params) []
    have hselect' : Returns (v.select (tagged run.params) []
        (before ++ (.str (Toggle.parse s').1, (Toggle.parse s').2) :: after)) run
          { plan with toggles :=
              togglesOf (before ++ (.str (Toggle.parse s').1, (Toggle.parse s').2) :: after) } run' := by
      rw [hsigns, map_eq_pure_bind]
      exact Returns.bind_iff.2 ⟨plan, run', hselect, Returns.pure_iff.2 ⟨rfl, rfl⟩⟩
    have hplan := returns_plan_iff.2 ⟨_, _, _, _, hrequest', hsplit s' ▸ hparsed' s', hselect'⟩
    refine ⟨_, hplan, fun k hk => ?_, ?_⟩
    · rw [select_toggles hselect, hname, lookup_togglesOf_of_ne before after hk]
    · rw [select_toggles hselect, hname]
      exact laxer_togglesOf before after hlax

/-! ## Runs for another sign -/

variable {hooks : Hooks} {v : Validator} {targets targets' : List Value} {plan : Plan}
  {toggles : Entries Toggle} {run₀ run run' : Run}

/-- Two runs whose plans differ in toggles only check a selected field with the same value and the same
parameters. -/
theorem Ran.lookup_toggled (hran : Ran hooks v targets plan run₀ run)
    (hran' : Ran hooks v targets' { plan with toggles } run₀ run') {n : String}
    (hn : n ∈ plan.selected) {f : Field} (hf : v.fields.lookup (.str n) = some f) :
    ∃ x params,
      run.fields.lookup (.str n) = some (turned hooks.search v.resetFields plan f.reset n x params) ∧
      run'.fields.lookup (.str n) =
        some (turned hooks.search v.resetFields { plan with toggles } f.reset n x params) := by
  obtain ⟨before, after, hsplit⟩ := List.append_of_mem hn
  obtain ⟨x, hx, hfield⟩ := hran.lookup_selected hsplit hf
  obtain ⟨x', hx', hfield'⟩ := hran'.lookup_selected hsplit hf
  obtain rfl := Except.ok.inj (hx.symm.trans hx')
  exact ⟨x, _, hfield, hfield'⟩

/-- A field whose toggle is the same in both runs is left in the same state. -/
theorem Ran.lookup_of_toggle_eq (hran : Ran hooks v targets plan run₀ run)
    (hran' : Ran hooks v targets' { plan with toggles } run₀ run') {k : Value}
    (hk : plan.toggles.lookup k = toggles.lookup k) : run'.fields.lookup k = run.fields.lookup k := by
  by_cases hturn : ∃ n ∈ plan.selected, (Value.str n).key? = k.key?
  · obtain ⟨n, hn, hkey⟩ := hturn
    rw [← Entries.lookup_congr hkey, ← Entries.lookup_congr hkey] at hk ⊢
    cases hf : v.fields.lookup (.str n) with
    | none =>
      have hdeclared : v.resetFields.fields.lookup (.str n) = none := by
        rw [← hran.fields, hran.lookup, hf]
        rfl
      rw [hran.keeps_after.lookup_eq_none hdeclared, hran'.keeps_after.lookup_eq_none hdeclared]
    | some f =>
      obtain ⟨x, params, hfield, hfield'⟩ := hran.lookup_toggled hran' hn hf
      rw [hfield, hfield']
      unfold turned
      rw [hk]
  · -- No turn of either run is that of the field.
    have hother : ∀ n ∈ plan.selected, (Value.str n).key? ≠ k.key? :=
      fun n hn hkey => hturn ⟨n, hn, hkey⟩
    rw [hran.lookup_of_no_turn hother, hran'.lookup_of_no_turn hother]

/-- A field whose toggle is laxer in the one run has the same value in both, and its messages in the one run
are among those in the other. -/
theorem Ran.errors_of_laxer (hran : Ran hooks v targets plan run₀ run)
    (hran' : Ran hooks v targets' { plan with toggles } run₀ run') {name : String} {f : Field}
    (hf : v.fields.lookup (.str name) = some f)
    (hlax : ((plan.toggles.lookup (.str name)).getD .declared).Laxer
      ((toggles.lookup (.str name)).getD .declared)) :
    ∃ g g', run.fields.lookup (.str name) = some g ∧ run'.fields.lookup (.str name) = some g' ∧
      g.value = g'.value ∧ g.errors.Sublist g'.errors := by
  by_cases hname : name ∈ plan.selected
  · obtain ⟨x, params, hfield, hfield'⟩ := hran.lookup_toggled hran' hname hf
    refine ⟨_, _, hfield, hfield', rfl, ?_⟩
    rw [errors_turned_reset, errors_turned_reset]
    rcases Field.expected_of_laxer hlax hooks.search v.directives x f ⟨params, v.fields⟩ with hnone | hsame
    · rw [hnone]
      exact List.nil_sublist _
    · rw [hsame]
  · have hother : ∀ n ∈ plan.selected, (Value.str n).key? ≠ (Value.str name).key? := by
      intro n hn hkey
      obtain rfl := Value.str.inj (Value.eq_str_of_key? hkey)
      exact hname hn
    rw [hran.lookup_of_no_turn hother, hran'.lookup_of_no_turn hother, hf]
    exact ⟨_, _, rfl, rfl, rfl, .refl _⟩

/-- If the one run finds the field of that name as it is or with fewer messages, and the others as they are,
then it passes if the other run passes. -/
theorem answer_of_sublist (hv : v.Consistent) {b b' : Bool}
    (h : (v.validate hooks targets).answer = .ok b) (h' : (v.validate hooks targets').answer = .ok b')
    (hselected : v.selected? targets = v.selected? targets')
    (herrors : ∀ k g, (v.validate hooks targets).validator.fields.lookup k = some g →
      ∃ g', (v.validate hooks targets').validator.fields.lookup k = some g' ∧
        g.errors.Sublist g'.errors) (hb' : b' = true) : b = true := by
  obtain ⟨hnone, hstray⟩ := (answer_eq_true_iff hv.named h').1 hb'
  refine (answer_eq_true_iff hv.named h).2 ⟨fun e he => ?_, hselected ▸ hstray⟩
  obtain ⟨⟨k, g⟩, hg, rfl⟩ := List.mem_map.1 he
  obtain ⟨g', hg', hsub⟩ := herrors k g ((hv.validate hooks targets).fields_distinct.lookup_of_mem hg)
  obtain ⟨l, hl, -⟩ := Entries.exists_mem_of_lookup hg'
  have hnil : g'.errors = [] := hnone (l, g'.errors) (List.mem_map.2 ⟨(l, g'), hl, rfl⟩)
  exact List.sublist_nil.1 (hnil ▸ hsub)

/-- Two runs for the same targets but for the sign of one name, of which the one is laxer, leave all other
fields in the same state. The messages of the field of that name in the laxer run are among those in the
other, and the laxer run passes if the other does. -/
theorem validate_laxer (hv : v.Consistent) (hdirectives : v.directives = .builtin)
    (hcallback : ∀ e ∈ v.fields, e.2.validation.isCallback = false) {vs ws : List Value}
    {s s' name : String} (hs : (Toggle.parse s).1 = name) (hs' : (Toggle.parse s').1 = name)
    (hlax : (Toggle.parse s).2.Laxer (Toggle.parse s').2) {f : Field}
    (hf : v.fields.lookup (.str name) = some f) {b b' : Bool}
    (h : (v.validate hooks (vs ++ .str s :: ws)).answer = .ok b)
    (h' : (v.validate hooks (vs ++ .str s' :: ws)).answer = .ok b') :
    (∀ k : Value, (Value.str name).key? ≠ k.key? →
      (v.validate hooks (vs ++ .str s' :: ws)).validator.fields.lookup k =
        (v.validate hooks (vs ++ .str s :: ws)).validator.fields.lookup k) ∧
      (∃ g g', (v.validate hooks (vs ++ .str s :: ws)).validator.fields.lookup (.str name) = some g ∧
        (v.validate hooks (vs ++ .str s' :: ws)).validator.fields.lookup (.str name) = some g' ∧
        g.value = g'.value ∧ g.errors.Sublist g'.errors) ∧
      (b' = true → b = true) := by
  subst hs
  obtain ⟨plan, run₀, run, hran⟩ := exists_ran hv hdirectives hcallback h
  obtain ⟨plan', run₀', run', hran'⟩ := exists_ran hv hdirectives hcallback h'
  obtain ⟨toggles, hplan', hother, htoggle⟩ := plan_sign hs' hlax hran.planned
  obtain ⟨rfl, rfl⟩ := hran'.planned.unique hplan'
  have hothers : ∀ k : Value, (Value.str (Toggle.parse s).1).key? ≠ k.key? →
      run'.fields.lookup k = run.fields.lookup k :=
    fun k hk => hran.lookup_of_toggle_eq hran' (hother k hk)
  obtain ⟨g, g', hg, hg', hvalue, hsub⟩ := hran.errors_of_laxer hran' hf htoggle
  have hselected : v.selected? (vs ++ .str s :: ws) = v.selected? (vs ++ .str s' :: ws) := by
    rw [selected?_eq hran.planned, selected?_eq hran'.planned]
  rw [hran.fields_after, hran'.fields_after]
  refine ⟨hothers, ⟨g, g', hg, hg', hvalue, hsub⟩, answer_of_sublist hv h h' hselected ?_⟩
  rw [hran.fields_after, hran'.fields_after]
  intro k e he
  by_cases hk : (Value.str (Toggle.parse s).1).key? = k.key?
  · rw [← Entries.lookup_congr hk] at he ⊢
    obtain rfl := Option.some.inj (hg.symm.trans he)
    exact ⟨g', hg', hsub⟩
  · exact ⟨e, (hothers k hk).trans he, .refl _⟩

/-- Of three runs that return for the same targets, but that a declared name is asked for as optional, as it
is declared, or as required, the first one leaves the field with messages that are among those of the
second one, and these are among those of the third one. All other fields are left in the same state. So
what passes when it is required passes as it is declared, and that passes when it is optional. -/
theorem validate_signs {hooks : Hooks} {v : Validator} {before after : List Value} {name : String}
    {f : Field} {passes : Toggle → Bool} (hv : Reachable hooks v)
    (hdirectives : v.directives = .builtin)
    (hcallback : ∀ e ∈ v.fields, e.2.validation.isCallback = false)
    (hname : (Toggle.parse name).2 = .declared) (hf : v.fields.lookup (.str name) = some f)
    (h : ∀ toggle : Toggle,
      (v.validate hooks (before ++ .str (toggle.sign ++ name) :: after)).answer =
        .ok (passes toggle)) :
    let fields (toggle : Toggle) :=
      (v.validate hooks (before ++ .str (toggle.sign ++ name) :: after)).validator.fields
    ∃ lax asked strict : Field,
      (fields .optional).lookup (.str name) = some lax ∧
      (fields .declared).lookup (.str name) = some asked ∧
      (fields .required).lookup (.str name) = some strict ∧
      lax.errors.Sublist asked.errors ∧ asked.errors.Sublist strict.errors ∧
      (∀ toggle k, (Value.str name).key? ≠ k.key? →
        (fields toggle).lookup k = (fields .declared).lookup k) ∧
      (passes .required = true → passes .declared = true) ∧
      (passes .declared = true → passes .optional = true) := by
  intro fields
  have hparse : ∀ toggle : Toggle, Toggle.parse (toggle.sign ++ name) = (name, toggle) :=
    fun toggle => Toggle.parse_sign_append fun _ => hname
  have hpair : ∀ t t' : Toggle, t.Laxer t' →
      (∀ k : Value, (Value.str name).key? ≠ k.key? → (fields t').lookup k = (fields t).lookup k) ∧
      (∃ g g', (fields t).lookup (.str name) = some g ∧ (fields t').lookup (.str name) = some g' ∧
        g.value = g'.value ∧ g.errors.Sublist g'.errors) ∧
      (passes t' = true → passes t = true) := by
    intro t t' hlax
    refine validate_laxer hv.consistent hdirectives hcallback (by rw [hparse]) (by rw [hparse]) ?_ hf
      (h t) (h t')
    rw [hparse, hparse]
    exact hlax
  obtain ⟨hothers, ⟨lax, asked, hoptional, hdeclared, -, hlax⟩, hpasses⟩ :=
    hpair .optional .declared (.inr (.inl rfl))
  obtain ⟨hothers', ⟨asked', strict, hdeclared', hrequired, -, hstrict⟩, hpasses'⟩ :=
    hpair .declared .required (.inr (.inr rfl))
  obtain rfl := Option.some.inj (hdeclared.symm.trans hdeclared')
  refine ⟨lax, asked, strict, hoptional, hdeclared, hrequired, hlax, hstrict, fun toggle k hk => ?_,
    hpasses', hpasses⟩
  cases toggle with
  | optional => exact (hothers k hk).symm
  | declared => rfl
  | required => exact hothers' k hk

/-- A validator for consent that must be given, and for a note that depends on it. -/
def consent : Validator where
  options := {}
  directives := .builtin
  filters := .builtin
  children := []
  mixins := []
  aliases := {}
  warnings := []
  fields :=
    [(.str "agreed",
      { name := .str "agreed"
        directives :=
          [(.str "required", .bool true), (.str "options", .list [.bool true]),
            (.str "filters", .list [])] }),
      (.str "note",
        { name := .str "note"
          directives := [(.str "depends_on", .str "agreed"), (.str "filters", .list [])] })]
  params := [(.str "agreed", .bool false), (.str "note", .str "x")]

/-- The validator is created from the directives of its fields. -/
theorem reachable_consent : Reachable .none consent :=
  @Reachable.create .none {} (.dict consent.params)
    { fields := .dict (consent.fields.mapValues fun f => .dict f.directives) } consent
    (by unfold Value.KeysDiffer; decide) (by unfold Value.KeysDiffer; decide) rfl

/-- Consent that is refused is no value while it is optional. As it is declared it must be given, and it is
no more wrong when it is required. -/
theorem validate_signs_consent :
    ∃ lax asked strict : Field,
      (consent.validate .none [.str "note", .str "-agreed"]).validator.fields.lookup (.str "agreed") =
        some lax ∧
      (consent.validate .none [.str "note", .str "agreed"]).validator.fields.lookup (.str "agreed") =
        some asked ∧
      (consent.validate .none [.str "note", .str "+agreed"]).validator.fields.lookup (.str "agreed") =
        some strict ∧
      lax.errors.Sublist asked.errors ∧ asked.errors.Sublist strict.errors ∧
      lax.errors.length = 0 ∧ strict.errors.map Value.text = ["agreed must be True"] := by
  have hanswer : ∀ toggle : Toggle,
      (consent.validate .none ([.str "note"] ++ .str (toggle.sign ++ "agreed") :: [])).answer =
        .ok (decide (toggle = .optional)) := by
    intro toggle
    cases toggle with
    | declared => exact ok_of_toOption (by decide +kernel)
    | required => exact ok_of_toOption (by decide +kernel)
    | optional => exact ok_of_toOption (by decide +kernel)
  have hname : (Toggle.parse "agreed").2 = .declared := by decide +kernel
  obtain ⟨f, hf⟩ : ∃ f, consent.fields.lookup (.str "agreed") = some f := ⟨_, rfl⟩
  obtain ⟨lax, asked, strict, hlax, hasked, hstrict, hsub, hsub', -⟩ :=
    validate_signs reachable_consent rfl (by decide) hname hf hanswer
  have hoptional : Toggle.optional.sign ++ "agreed" = "-agreed" := by decide +kernel
  have hdeclared : Toggle.declared.sign ++ "agreed" = "agreed" := by decide +kernel
  have hrequired : Toggle.required.sign ++ "agreed" = "+agreed" := by decide +kernel
  dsimp only at hlax hasked hstrict
  rw [List.singleton_append, hoptional] at hlax
  rw [List.singleton_append, hdeclared] at hasked
  rw [List.singleton_append, hrequired] at hstrict
  refine ⟨lax, asked, strict, hlax, hasked, hstrict, hsub, hsub', ?_, ?_⟩
  · have hnone : ((consent.validate .none [.str "note", .str "-agreed"]).validator.fields.lookup
        (.str "agreed")).map (·.errors.length) = some 0 := by decide +kernel
    rw [hlax] at hnone
    exact Option.some.inj hnone
  · have hone : ((consent.validate .none [.str "note", .str "+agreed"]).validator.fields.lookup
        (.str "agreed")).map (·.errors.map Value.text) = some ["agreed must be True"] := by
      decide +kernel
    rw [hstrict] at hone
    exact Option.some.inj hone

end Validator

end ParamCheck
