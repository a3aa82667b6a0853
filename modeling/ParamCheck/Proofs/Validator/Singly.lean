import ParamCheck.Proofs.Alias.Resolution
import ParamCheck.Proofs.Validator.Independence

/-!
# Targets one at a time

A run for several names does what the runs for each of them do, if no check reads another parameter than
that of its own field. All these runs start from the same plan but for the selected names
(`Validator.plan_unsigned_iff`), which are the targets and the fields that take an alias. So a run returns
exactly if each of its names passes (`Validator.returns_unsigned_iff`), two runs leave a field that
both select in the same state (`Validator.Ran.lookup_unsigned`), and the answer says whether any selected
field has messages (`Validator.Ran.answer_iff`).
-/

namespace ParamCheck

/-- The field uses neither of the two directives that refer to other parameters. -/
def Field.StandsAlone (f : Field) : Prop :=
  f.directives.contains (.str "matches") = false ∧ f.directives.contains (.str "depends_on") = false

instance (f : Field) : Decidable f.StandsAlone := inferInstanceAs (Decidable (_ ∧ _))

/-- Of the checks at hand, only those of two directives read parameters. -/
theorem DirectiveTable.reads_builtin {key : Value} {c : BuiltinCheck}
    (hcheck : builtin.check? key = some (.builtin c))
    (hmatches : key.key? ≠ (Value.str "matches").key?)
    (hdepends : key.key? ≠ (Value.str "depends_on").key?) (argument : Value) :
    c.reads argument = [] := by
  have htable : ∀ e ∈ builtin, e.1.key? ≠ (Value.str "matches").key? →
      e.1.key? ≠ (Value.str "depends_on").key? →
        e.2.check ≠ some (.builtin .matchesField) ∧ e.2.check ≠ some (.builtin .dependsOn) := by
    decide
  obtain ⟨d, hd, hc⟩ := Option.bind_eq_some_iff.1 hcheck
  obtain ⟨l, hl, hkey⟩ := Entries.exists_mem_of_lookup hd
  obtain ⟨hnotMatches, hnotDepends⟩ := htable _ hl (hkey ▸ hmatches) (hkey ▸ hdepends)
  refine BuiltinCheck.reads_eq_nil ?_ ?_ argument
  · rintro rfl
    exact hnotMatches hc
  · rintro rfl
    exact hnotDepends hc

namespace Validator

variable {hooks : Hooks} {v : Validator} {ts ts' : List String} {plan plan' : Plan}
  {run run₀ run' run₀' : Run}

/-! ## Plans for names without signs -/

/-- What a run for names without signs goes by, but for the names, while nothing is in the queue. -/
def basePlan (v : Validator) : Plan :=
  let moved := v.aliases.move (tagged v.params)
  { selected := []
    toggles := []
    sources := Entries.overlay [] moved.2
    origins := moved.1.mapValues (·.1)
    hasParams := !moved.1.isEmpty }

section

variable (hqueue : v.queue = []) (hts : ts ≠ [])
  (hunsigned : ∀ t ∈ ts, (Toggle.parse t).2 = .declared)

include hqueue hts hunsigned

/-- The plan for names without signs selects them and the fields that take an alias, and nothing else about it
depends on the names. -/
theorem plan_unsigned_iff :
    Returns (v.resetFields.plan (ts.map .str))
        { params := v.params, fields := v.resetFields.fields } plan run₀ ↔
      ∃ selected notes,
        Value.unique (ts.map .str ++ (v.aliases.move v.params).2.keys) = selected.map .str ∧
        notes = ((v.aliases.move v.params).2.map fun (field, source) => .resolvedAlias source field) ++
          [.validating selected] ∧
        plan = { v.basePlan with selected } ∧
        run₀ =
          { params := (v.aliases.move v.params).1, fields := v.resetFields.fields, notes } := by
  have hmove := AliasMap.move_mapValues (·.2) v.aliases (tagged v.params)
  rw [mapValues_tagged] at hmove
  have hempty : v.resetFields.queue.mapM Toggle.ofValue = .ok [] := by
    rw [show v.resetFields.queue = v.queue from rfl, hqueue]
    rfl
  rw [hmove]
  have hmoved : v.resetFields.aliases.move (tagged v.params) =
    ((v.aliases.move (tagged v.params)).1, (v.aliases.move (tagged v.params)).2) := rfl
  refine (plan_names_iff hts hunsigned hmoved).trans ?_
  constructor
  · rintro ⟨queued, selected, hqueued, hselected, rfl, rfl⟩
    obtain rfl := Except.ok.inj (hempty.symm.trans hqueued)
    exact ⟨selected, _, hselected, rfl, rfl, rfl⟩
  · rintro ⟨selected, notes, hselected, rfl, rfl, rfl⟩
    exact ⟨[], selected, hempty, hselected, rfl, rfl⟩

omit hqueue hts hunsigned in
/-- The selected names are the given ones and those of the fields that take an alias. -/
theorem mem_selected_iff {keys : List Value} {selected : List String}
    (h : Value.unique (ts.map .str ++ keys) = selected.map .str) {name : String} :
    name ∈ selected ↔ name ∈ ts ∨ .str name ∈ keys := by
  rw [← List.mem_map_of_injective (f := Value.str) fun _ _ => Value.str.inj,
    ← List.mem_map_of_injective (f := Value.str) fun _ _ => Value.str.inj, ← h, ← List.mem_append]
  refine ⟨Value.mem_of_mem_unique, fun hmem => ?_⟩
  obtain ⟨w, hw, hkey⟩ := Value.exists_mem_unique hmem
  rwa [← Value.eq_str_of_key? hkey]

omit hqueue hts hunsigned in
/-- Texts are selected as they are. -/
theorem exists_selected (names : List String) :
    ∃ selected : List String, Value.unique (names.map .str) = selected.map .str := by
  refine Value.exists_texts fun v hv => ?_
  obtain ⟨s, -, rfl⟩ := List.mem_map.1 (Value.mem_of_mem_unique hv)
  exact ⟨s, rfl⟩

/-- A run for names without signs selects them and the fields that take an alias. -/
theorem Ran.mem_selected (hran : Ran hooks v (ts.map .str) plan run₀ run) {name : String} :
    name ∈ plan.selected ↔ name ∈ ts ∨ .str name ∈ (v.aliases.move v.params).2.keys := by
  obtain ⟨selected, notes, hselected, -, rfl, -⟩ :=
    (plan_unsigned_iff hqueue hts hunsigned).1 hran.planned
  exact mem_selected_iff hselected

omit hqueue hts hunsigned in
/-- If no check reads another parameter, a turn passes after others as it does without them. -/
theorem passes_of_unread (hread : ∀ e ∈ v.fields, v.readBy e.2 = []) (plan : Plan)
    (params : Entries Value) (before : List String) (name : String) :
    Passes hooks v.resetFields plan params before name ↔
      Passes hooks v.resetFields plan params [] name := by
  unfold Passes
  cases hf : v.resetFields.fields.lookup (.str name) with
  | none => rfl
  | some f =>
    obtain ⟨l, hl, -⟩ := Entries.exists_mem_of_lookup hf
    obtain ⟨⟨_, g⟩, hg, heq⟩ := List.mem_map.1 hl
    obtain ⟨-, rfl⟩ := Prod.mk.inj heq
    refine exists_congr fun x => and_congr_right fun _ => ?_
    refine Field.checkable_of_alike (fun e he c hc k hk => ?_) _ x _
    have hnone : k ∈ v.readBy g := mem_readBy he hc hk
    rw [hread _ hg] at hnone
    cases hnone

/-- If no check reads another parameter, a run for names without signs returns exactly if the fields that
take an alias have texts for names, and they and the given names pass. -/
theorem returns_unsigned_iff (hread : ∀ e ∈ v.fields, v.readBy e.2 = []) (hv : v.Consistent)
    (hdirectives : v.directives = .builtin)
    (hcallback : ∀ e ∈ v.fields, e.2.validation.isCallback = false) :
    (∃ b, (v.validate hooks (ts.map .str)).answer = .ok b) ↔
      (∃ keys : List String, (v.aliases.move v.params).2.keys = keys.map .str) ∧
        ∀ name, name ∈ ts ∨ .str name ∈ (v.aliases.move v.params).2.keys →
          Passes hooks v.resetFields v.basePlan (v.aliases.move v.params).1 [] name := by
  constructor
  · rintro ⟨b, hb⟩
    obtain ⟨plan, run₀, run, hran⟩ := exists_ran hv hdirectives hcallback hb
    have hselected : ∀ {name}, name ∈ plan.selected ↔ _ := hran.mem_selected hqueue hts hunsigned
    have hpasses := (checkFields_settles_iff hran.plain hran.nodup hran.keeps hran.distinct).1
      ⟨(), run, hran.turns⟩
    obtain ⟨selected, notes, hunique, -, rfl, rfl⟩ :=
      (plan_unsigned_iff hqueue hts hunsigned).1 hran.planned
    obtain ⟨texts, htexts⟩ := Value.exists_texts_of_unique hunique
    obtain ⟨-, keys, -, -, hkeys⟩ := List.append_eq_map_iff.1 htexts
    refine ⟨⟨keys, hkeys.symm⟩, fun name hname => ?_⟩
    obtain ⟨before, after, hsplit⟩ := List.append_of_mem (hselected.2 hname)
    exact (passes_of_unread hread _ _ before name).1 (hpasses before name after hsplit)
  · rintro ⟨⟨keys, hkeys⟩, hpasses⟩
    obtain ⟨selected, hselected⟩ := exists_selected (ts ++ keys)
    rw [List.map_append, ← hkeys] at hselected
    have hplan := (plan_unsigned_iff hqueue hts hunsigned).2 ⟨selected, _, hselected, rfl, rfl, rfl⟩
    have hsettles : Settles
        (Run.checkFields hooks v.resetFields { v.basePlan with selected } selected) _ :=
      (checkFields_settles_iff (hv.plain hdirectives hcallback)
        (hv.nodup_selected hplan) (plan_keeps hplan) (distinct_plan hv.params_distinct hplan)).2
        fun before name after hsplit => by
          have hmem : name ∈ before ++ name :: after := List.mem_append_right before List.mem_cons_self
          rw [← show selected = before ++ name :: after from hsplit] at hmem
          exact (passes_of_unread hread _ _ before name).2 (hpasses name ((mem_selected_iff hselected).1 hmem))
    obtain ⟨_, run, hturns⟩ := hsettles
    exact ⟨_, answer_of_turns hplan hturns⟩

end

/-! ## What runs leave -/

/-- The answer of a run that selects nothing but fields says whether any of them has messages. -/
theorem Ran.answer_iff {targets : List Value} {b : Bool} (hv : v.Consistent)
    (hran : Ran hooks v targets plan run₀ run)
    (hdeclared : ∀ name ∈ plan.selected, (v.fields.lookup (.str name)).isSome = true)
    (h : (v.validate hooks targets).answer = .ok b) :
    b = true ↔ ∀ name ∈ plan.selected, ∀ g, run.fields.lookup (.str name) = some g → g.errors = [] := by
  have hstray : ∀ m, ¬v.Stray ((v.selected? targets).getD []) m := by
    rw [selected?_eq hran.planned, Option.getD_some]
    rintro m ⟨-, -, name, hname, hnone, -⟩
    have hsome := hdeclared name hname
    rw [hnone] at hsome
    cases hsome
  have hdistinct : run.fields.Distinct :=
    hv.fields_distinct.of_keys (hran.keeps_after.keys.trans (Entries.keys_mapValues _ _))
  rw [answer_eq_true_iff hv.named h, fieldErrors, hran.fields_after]
  constructor
  · rintro ⟨hnone, -⟩ name - g hg
    obtain ⟨l, hl, -⟩ := Entries.exists_mem_of_lookup hg
    exact hnone _ (List.mem_map_of_mem (f := fun e : Value × Field => (e.1, e.2.errors)) hl)
  · intro hnone
    refine ⟨fun e he => ?_, hstray⟩
    obtain ⟨⟨k, g⟩, hg, rfl⟩ := List.mem_map.1 he
    have hlookup := hdistinct.lookup_of_mem hg
    by_cases hk : ∃ name ∈ plan.selected, (Value.str name).key? = k.key?
    · obtain ⟨name, hname, hkey⟩ := hk
      exact hnone name hname g ((Entries.lookup_congr hkey _).trans hlookup)
    · -- A field without a turn is as it is before the run.
      have hother : ∀ name ∈ plan.selected, (Value.str name).key? ≠ k.key? :=
        fun name hname hkey => hk ⟨name, hname, hkey⟩
      have hreset := (hran.lookup_of_no_turn hother).symm.trans hlookup
      obtain ⟨f, -, rfl⟩ := Option.map_eq_some_iff.1 hreset
      rfl

/-- A field that takes an alias is declared. -/
theorem isSome_of_mem_moved (hv : v.Consistent) {k : Value}
    (hk : k ∈ (v.aliases.move v.params).2.keys) : (v.fields.lookup k).isSome = true := by
  obtain ⟨s, hs⟩ := Entries.exists_lookup_of_mem_keys hk
  rw [AliasMap.lookup_move_snd hv.fits hv.fields_distinct,
    AliasMap.source?_eq_some_iff hv.fits hv.fields_distinct] at hs
  obtain ⟨f, hf, -⟩ := hs
  rw [hf]
  rfl

/-- The built-in checks of a field that stands alone read no parameter. -/
theorem readBy_eq_nil (hdirectives : v.directives = .builtin) {f : Field} (hf : f.StandsAlone) :
    v.readBy f = [] := by
  refine List.flatMap_eq_nil_iff.2 fun e he => ?_
  have habsent : ∀ k, f.directives.contains k = false → e.1.key? ≠ k.key? := by
    intro k hk hkey
    rw [Entries.contains_iff.2 ⟨e.1, List.mem_map_of_mem he, hkey⟩] at hk
    cases hk
  rw [hdirectives]
  split
  · next c hc => exact DirectiveTable.reads_builtin hc (habsent _ hf.1) (habsent _ hf.2) e.2
  · rfl

section

variable (hqueue : v.queue = []) (hts : ts ≠ []) (hts' : ts' ≠ [])
  (hunsigned : ∀ t ∈ ts, (Toggle.parse t).2 = .declared)
  (hunsigned' : ∀ t ∈ ts', (Toggle.parse t).2 = .declared)
  (hread : ∀ e ∈ v.fields, v.readBy e.2 = [])
  (hran : Ran hooks v (ts.map .str) plan run₀ run)
  (hran' : Ran hooks v (ts'.map .str) plan' run₀' run')

include hqueue hts hts' hunsigned hunsigned' hread hran hran'

/-- Two runs for names without signs leave a field that both select in the same state, if no check reads
another parameter. -/
theorem Ran.lookup_unsigned {name : String} (hname : name ∈ plan.selected)
    (hname' : name ∈ plan'.selected) {f : Field} (hf : v.fields.lookup (.str name) = some f) :
    run.fields.lookup (.str name) = run'.fields.lookup (.str name) := by
  obtain ⟨selected, notes, -, -, rfl, rfl⟩ := (plan_unsigned_iff hqueue hts hunsigned).1 hran.planned
  obtain ⟨selected', notes', -, -, rfl, rfl⟩ :=
    (plan_unsigned_iff hqueue hts' hunsigned').1 hran'.planned
  obtain ⟨before, after, hsplit⟩ := List.append_of_mem hname
  obtain ⟨before', after', hsplit'⟩ := List.append_of_mem hname'
  obtain ⟨x, hx, hfield⟩ := hran.lookup_selected hsplit hf
  obtain ⟨x', hx', hfield'⟩ := hran'.lookup_selected hsplit' hf
  obtain rfl := Except.ok.inj (hx.symm.trans hx')
  obtain ⟨l, hl, -⟩ := Entries.exists_mem_of_lookup hf
  rw [hfield, hfield']
  refine congrArg some (turned_of_agree rfl name x fun k hk => ?_)
  rw [hread _ hl] at hk
  cases hk

end

section

variable (hv : v.Consistent) (hdirectives : v.directives = .builtin)
  (hcallback : ∀ e ∈ v.fields, e.2.validation.isCallback = false) (hqueue : v.queue = [])
  (hts : ts ≠ []) (hunsigned : ∀ t ∈ ts, (Toggle.parse t).2 = .declared)

include hv hdirectives hcallback hqueue hts hunsigned

variable (hread : ∀ e ∈ v.fields, v.readBy e.2 = [])

include hread

/-- If no check reads another parameter, a run for names without signs returns exactly if the runs for each
of them do. -/
theorem returns_each_iff :
    (∃ b, (v.validate hooks (ts.map .str)).answer = .ok b) ↔
      ∀ t ∈ ts, ∃ b, (v.validate hooks [.str t]).answer = .ok b := by
  have hsingle : ∀ t ∈ ts, (∃ b, (v.validate hooks [.str t]).answer = .ok b) ↔ _ := fun t ht =>
    returns_unsigned_iff hqueue (List.cons_ne_nil t [])
      (List.forall_mem_singleton.2 (hunsigned t ht)) hread hv hdirectives hcallback
  rw [returns_unsigned_iff hqueue hts hunsigned hread hv hdirectives hcallback]
  constructor
  · rintro ⟨hkeys, hpasses⟩ t ht
    refine (hsingle t ht).2 ⟨hkeys, fun name hname => hpasses name (hname.imp_left fun hmem => ?_)⟩
    rwa [List.mem_singleton.1 hmem]
  · intro hall
    obtain ⟨t₀, ht₀⟩ := List.exists_mem_of_ne_nil ts hts
    obtain ⟨hkeys, hmoved⟩ := (hsingle t₀ ht₀).1 (hall t₀ ht₀)
    refine ⟨hkeys, fun name hname => ?_⟩
    -- A field that takes an alias is selected whatever the name is.
    rcases hname with ht | hkey
    · exact ((hsingle name ht).1 (hall name ht)).2 name (.inl List.mem_cons_self)
    · exact hmoved name (.inr hkey)

variable (hdeclared : ∀ t ∈ ts, (v.fields.lookup (.str t)).isSome = true)

include hdeclared

/-- The run for one of the names leaves the fields that it selects as the run for all names does, and its answer
says whether any of these has messages. -/
theorem Ran.single (hran : Ran hooks v (ts.map .str) plan run₀ run) {t : String} (ht : t ∈ ts) {b : Bool}
    (h : (v.validate hooks [.str t]).answer = .ok b) :
    (v.validate hooks [.str t]).validator.fields.lookup (.str t) = run.fields.lookup (.str t) ∧
      (b = true ↔ ∀ name, name = t ∨ .str name ∈ (v.aliases.move v.params).2.keys →
        ∀ g, run.fields.lookup (.str name) = some g → g.errors = []) := by
  have hnil : [t] ≠ [] := List.cons_ne_nil t []
  have hunsigned' : ∀ s ∈ [t], (Toggle.parse s).2 = .declared :=
    List.forall_mem_singleton.2 (hunsigned t ht)
  have hanswer : (v.validate hooks ([t].map .str)).answer = .ok b := h
  obtain ⟨plan', run₀', run', hran'⟩ := exists_ran hv hdirectives hcallback hanswer
  have hmem : ∀ {name}, name ∈ plan'.selected ↔
      name = t ∨ .str name ∈ (v.aliases.move v.params).2.keys := by
    intro name
    rw [hran'.mem_selected hqueue hnil hunsigned', List.mem_singleton]
  -- What the run selects is declared and is selected for all names, too.
  have hselected : ∀ name ∈ plan'.selected, (v.fields.lookup (.str name)).isSome = true ∧
      name ∈ plan.selected := by
    intro name hname
    rw [hran.mem_selected hqueue hts hunsigned]
    rcases hmem.1 hname with rfl | hkey
    · exact ⟨hdeclared name ht, .inl ht⟩
    · exact ⟨isSome_of_mem_moved hv hkey, .inr hkey⟩
  have hsame : ∀ name ∈ plan'.selected,
      run'.fields.lookup (.str name) = run.fields.lookup (.str name) := by
    intro name hname
    obtain ⟨hsome, hname'⟩ := hselected name hname
    obtain ⟨f, hf⟩ := Option.isSome_iff_exists.1 hsome
    exact Ran.lookup_unsigned hqueue hnil hts hunsigned' hunsigned hread hran' hran hname hname' hf
  refine ⟨?_, ?_⟩
  · rw [← hsame t (hmem.2 (.inl rfl))]
    exact congrArg (Entries.lookup · (.str t)) hran'.fields_after
  · rw [hran'.answer_iff hv (fun name hname => (hselected name hname).1) h]
    simp only [← hmem]
    refine forall₂_congr fun name hname => ?_
    rw [hsame name hname]

end

/-- Take any validator whose checks are built in, without validation callbacks, without a check that refers to
another parameter and with nothing in its queue. A run for declared names without signs returns
exactly if the runs for each of them do. It finds nothing wrong exactly if none of them does, and it leaves
each of the names with the value and the messages that its own run leaves it with. -/
theorem validate_each (hv : Reachable hooks v) (hdirectives : v.directives = .builtin)
    (hcallback : ∀ e ∈ v.fields, e.2.validation.isCallback = false)
    (halone : ∀ e ∈ v.fields, e.2.StandsAlone) (hqueue : v.queue = []) (hts : ts ≠ [])
    (hdeclared : ∀ t ∈ ts, (v.fields.lookup (.str t)).isSome = true)
    (hunsigned : ∀ t ∈ ts, (Toggle.parse t).2 = .declared) :
    ((∃ b, (v.validate hooks (ts.map .str)).answer = .ok b) ↔
        ∀ t ∈ ts, ∃ b, (v.validate hooks [.str t]).answer = .ok b) ∧
      ∀ b, (v.validate hooks (ts.map .str)).answer = .ok b →
        (b = true ↔ ∀ t ∈ ts, (v.validate hooks [.str t]).answer = .ok true) ∧
          ∀ t ∈ ts, ∃ g,
            (v.validate hooks [.str t]).validator.fields.lookup (.str t) = some g ∧
              (v.validate hooks (ts.map .str)).validator.fields.lookup (.str t) = some g := by
  have hconsistent := hv.consistent
  have hread : ∀ e ∈ v.fields, v.readBy e.2 = [] :=
    fun e he => readBy_eq_nil hdirectives (halone e he)
  have hreturns : (∃ b, (v.validate hooks (ts.map .str)).answer = .ok b) ↔ _ :=
    returns_each_iff hconsistent hdirectives hcallback hqueue hts hunsigned hread
  refine ⟨hreturns, fun b hb => ?_⟩
  obtain ⟨plan, run₀, run, hran⟩ := exists_ran hconsistent hdirectives hcallback hb
  have hmem : ∀ {name}, name ∈ plan.selected ↔ _ := hran.mem_selected hqueue hts hunsigned
  have hsingle : ∀ t ∈ ts, ∃ b', (v.validate hooks [.str t]).answer = .ok b' ∧
      (v.validate hooks [.str t]).validator.fields.lookup (.str t) = run.fields.lookup (.str t) ∧
      (b' = true ↔ ∀ name, name = t ∨ .str name ∈ (v.aliases.move v.params).2.keys →
        ∀ g, run.fields.lookup (.str name) = some g → g.errors = []) := by
    intro t ht
    obtain ⟨b', hb'⟩ := hreturns.1 ⟨b, hb⟩ t ht
    exact ⟨b', hb', Ran.single hconsistent hdirectives hcallback hqueue hts hunsigned hread hdeclared
      hran ht hb'⟩
  refine ⟨?_, fun t ht => ?_⟩
  · rw [hran.answer_iff hconsistent (fun name hname =>
      (hmem.1 hname).elim (hdeclared name) (isSome_of_mem_moved hconsistent)) hb]
    constructor
    · intro hnone t ht
      obtain ⟨b', hb', -, hanswer⟩ := hsingle t ht
      rw [hb', hanswer.2 fun name hname =>
        hnone name (hmem.2 (hname.imp_left fun heq : name = t => heq ▸ ht))]
    · intro hall
      have hnone : ∀ t ∈ ts, ∀ name, name = t ∨ .str name ∈ (v.aliases.move v.params).2.keys →
          ∀ g, run.fields.lookup (.str name) = some g → g.errors = [] := by
        intro t ht
        obtain ⟨b', hb', -, hanswer⟩ := hsingle t ht
        exact hanswer.1 (Except.ok.inj (hb'.symm.trans (hall t ht)))
      obtain ⟨t₀, ht₀⟩ := List.exists_mem_of_ne_nil ts hts
      intro name hname
      rcases hmem.1 hname with ht | hkey
      · exact hnone name ht name (.inl rfl)
      · exact hnone t₀ ht₀ name (.inr hkey)
  · obtain ⟨b', -, hlookup, -⟩ := hsingle t ht
    obtain ⟨f, hf⟩ := Option.isSome_iff_exists.1 (hdeclared t ht)
    obtain ⟨before, after, hsplit⟩ := List.append_of_mem (hmem.2 (.inl ht))
    obtain ⟨x, -, hfield⟩ := hran.lookup_selected hsplit hf
    rw [hlookup, hran.fields_after]
    exact ⟨_, hfield, hfield⟩

/-- A validator for two fields: the first one is supplied by an alias and trims, and the second one is too
long. -/
def members : Validator where
  options := {}
  directives := .builtin
  filters := .builtin
  children := []
  mixins := []
  aliases := { fields := [(.str "login", [.str "user"])], aliases := [(.str "user", .str "login")] }
  warnings := []
  fields :=
    [(.str "login",
      { name := .str "login"
        directives := [(.str "alias", .str "user"), (.str "filters", .list [.str "trim"])] }),
      (.str "nick",
        { name := .str "nick"
          directives := [(.str "max_length", .int 2), (.str "filters", .list [])] })]
  params := [(.str "user", .str " ab"), (.str "nick", .str "abc")]

/-- The validator is created from the directives of its fields. -/
theorem reachable_members : Reachable .none members :=
  @Reachable.create .none {} (.dict members.params)
    { fields := .dict (members.fields.mapValues fun f => .dict f.directives) } members
    (by unfold Value.KeysDiffer; decide) (by unfold Value.KeysDiffer; decide) rfl

/-- Of the two fields, each of which returns by itself, the second one alone is at fault, and so both together
are. -/
theorem validate_each_members :
    (members.validate .none [.str "nick", .str "login"]).answer = .ok false ∧
      (members.validate .none [.str "login"]).answer = .ok true ∧
      (members.validate .none [.str "nick"]).answer = .ok false ∧
      ∃ g, (members.validate .none [.str "nick"]).validator.fields.lookup (.str "nick") = some g ∧
        (members.validate .none [.str "nick", .str "login"]).validator.fields.lookup (.str "nick") =
          some g := by
  have hlogin : (members.validate .none [.str "login"]).answer = .ok true :=
    ok_of_toOption (by decide +kernel)
  have hnick : (members.validate .none [.str "nick"]).answer = .ok false :=
    ok_of_toOption (by decide +kernel)
  obtain ⟨hreturns, hsame⟩ := @validate_each .none members ["nick", "login"] reachable_members rfl
    (by decide) (by decide) rfl (by decide) (by decide) (by decide)
  obtain ⟨b, hb⟩ := hreturns.2 (List.forall_mem_cons.2 ⟨⟨false, hnick⟩,
    List.forall_mem_singleton.2 ⟨true, hlogin⟩⟩)
  obtain ⟨hanswer, hfields⟩ := hsame b hb
  cases b with
  | true =>
    have hfault := hnick.symm.trans (hanswer.1 rfl "nick" List.mem_cons_self)
    cases hfault
  | false => exact ⟨hb, hlogin, hnick, hfields "nick" List.mem_cons_self⟩

end Validator

end ParamCheck
