import Mathlib.Data.List.Basic
import ParamCheck.Proofs.Validator.Plan
import ParamCheck.Proofs.Validator.Reachable
import ParamCheck.Proofs.Validator.Turn

/-!
# Turns in a row

A run takes the turns of the selected names one after the other. If all checks are built in and no
field has a validation callback (`Validator.Plain`), then after some turns the parameters of the run
are those in which their fields have the values that are checked (`Validator.checkFields_params`), and
what concerns other fields is as it was (`Validator.checkFields_fields`,
`Validator.checkFields_filtered`). So the outcome for a field is that of its own turn.
-/

namespace ParamCheck.Validator

/-- In a list without repetitions an entry stands at one place. -/
theorem eq_of_split {α : Type} {l before after before' after' : List α} {x : α} (hl : l.Nodup)
    (h : l = before ++ x :: after) (h' : l = before' ++ x :: after') :
    before = before' ∧ after = after' := by
  have hsplit := h.symm.trans h'
  rw [h] at hl
  obtain ⟨-, hcons, hdisjoint⟩ := List.nodup_append.1 hl
  have hbefore : x ∉ before := fun hx => hdisjoint x hx x List.mem_cons_self rfl
  have hafter : x ∉ after := (List.nodup_cons.1 hcons).1
  obtain ⟨heq, -, heq'⟩ := (List.append_cons_inj_of_notMem hbefore hafter).1 hsplit
  exact ⟨heq, heq'⟩

variable (hooks : Hooks) (v : Validator)

/-- A parameter of a run after the turns of some names: the value that is checked, if its key is one
of them and a field. -/
def checkedParam (done : List String) (key x : Value) : Value :=
  match key with
  | .str name =>
    if name ∈ done then
      match v.fields.lookup key with
      | some f => (f.checkedValue hooks.filter v.filters (some x)).toOption.getD x
      | none => x
    else x
  | _ => x

/-- The parameters of a run after the turns of some names. -/
def checkedParams (done : List String) (params : Entries Value) : Entries Value :=
  params.map fun (key, x) => (key, checkedParam hooks v done key x)

variable {hooks v}

/-- A parameter whose turn has come has the value that is checked, if its key is a field. -/
theorem checkedParam_of_mem {done : List String} {name : String} (h : name ∈ done) (x : Value) :
    checkedParam hooks v done (.str name) x =
      match v.fields.lookup (.str name) with
      | some f => (f.checkedValue hooks.filter v.filters (some x)).toOption.getD x
      | none => x := if_pos h

/-- A parameter whose turn has not come is as it was. -/
theorem checkedParam_of_not_mem {done : List String} {name : String} (h : name ∉ done)
    (x : Value) : checkedParam hooks v done (.str name) x = x := if_neg h

/-- Turns keep the keys of the parameters. -/
theorem keys_checkedParams (done : List String) (params : Entries Value) :
    (checkedParams hooks v done params).keys = params.keys := by
  unfold checkedParams Entries.keys
  rw [List.map_map]
  rfl

/-- What is found after turns is what was found before them, after the turn of its key. -/
theorem lookup_checkedParams (done : List String) (params : Entries Value) (k : Value) :
    (checkedParams hooks v done params).lookup k =
      (params.lookup k).map (checkedParam hooks v done k) := by
  induction params with
  | nil => rfl
  | cons e rest ih =>
    obtain ⟨l, x⟩ := e
    show Entries.lookup ((l, checkedParam hooks v done l x) :: checkedParams hooks v done rest) _ = _
    rw [Entries.lookup, Entries.lookup, ih]
    split
    · next hl =>
      refine congrArg some ?_
      -- Only texts have turns, and a text is found by no other key.
      cases k with
      | str name => rw [Value.eq_str_of_key? hl]
      | _ =>
        cases l with
        | str name => cases Value.eq_str_of_key? hl.symm
        | _ => rfl
    · rfl

/-- The parameter of a name whose turn has not come is as it was. -/
theorem lookup_checkedParams_of_not_mem {done : List String} {name : String} (h : name ∉ done)
    (params : Entries Value) :
    (checkedParams hooks v done params).lookup (.str name) = params.lookup (.str name) := by
  rw [lookup_checkedParams]
  cases params.lookup (.str name) with
  | none => rfl
  | some x => exact congrArg some (checkedParam_of_not_mem h x)

/-- Turns of different names can be taken in two goes. -/
theorem checkedParams_checkedParams {done done' : List String}
    (h : ∀ name ∈ done, name ∉ done') (params : Entries Value) :
    checkedParams hooks v done' (checkedParams hooks v done params) =
      checkedParams hooks v (done ++ done') params := by
  unfold checkedParams
  rw [List.map_map]
  refine List.map_congr_left fun e _ => ?_
  obtain ⟨key, x⟩ := e
  refine congrArg (key, ·) ?_
  show checkedParam hooks v done' key (checkedParam hooks v done key x) = _
  cases key with
  | str name =>
    by_cases hdone : name ∈ done
    -- A name has its turn in one of the two goes, and the other one passes it over.
    · rw [checkedParam_of_not_mem (h name hdone), checkedParam_of_mem hdone,
        checkedParam_of_mem (List.mem_append_left done' hdone)]
    · rw [checkedParam_of_not_mem hdone]
      unfold checkedParam
      simp only [List.mem_append, hdone, false_or]
  | _ => rfl

/-- Turns that change no parameter leave the parameters. -/
theorem checkedParams_eq_self {done : List String} {params : Entries Value}
    (h : ∀ e ∈ params, checkedParam hooks v done e.1 e.2 = e.2) :
    checkedParams hooks v done params = params := by
  unfold checkedParams
  conv_rhs => rw [← List.map_id params]
  exact List.map_congr_left fun e he => congrArg (e.1, ·) (h e he)

/-- Without turns the parameters are as they were. -/
theorem checkedParams_nil (params : Entries Value) : checkedParams hooks v [] params = params := by
  refine checkedParams_eq_self fun e _ => ?_
  obtain ⟨key, x⟩ := e
  cases key with
  | str name => exact checkedParam_of_not_mem List.not_mem_nil x
  | _ => rfl

/-- The turn of a name that is no field changes no parameter. -/
theorem checkedParams_of_no_field {name : String} (h : v.fields.lookup (.str name) = none)
    (params : Entries Value) : checkedParams hooks v [name] params = params := by
  refine checkedParams_eq_self fun e _ => ?_
  obtain ⟨key, x⟩ := e
  cases key with
  | str name' =>
    by_cases hname : name' ∈ [name]
    · obtain rfl := List.mem_singleton.1 hname
      rw [checkedParam_of_mem hname, h]
    · exact checkedParam_of_not_mem hname x
  | _ => rfl

/-- The turn of a field sets its parameter, if it has one, to the value that is checked. -/
theorem checkedParams_of_field {name : String} {f : Field}
    (hf : v.fields.lookup (.str name) = some f) {params : Entries Value}
    (hparams : params.Distinct) {x : Value}
    (hx : f.checkedValue hooks.filter v.filters (params.lookup (.str name)) = .ok x) :
    (if params.contains (.str name) then params.insert (.str name) x else params) =
      checkedParams hooks v [name] params := by
  -- The turn touches no other parameter.
  have hother : ∀ (key y : Value), key.key? ≠ (Value.str name).key? →
      checkedParam hooks v [name] key y = y := by
    intro key y hkey
    cases key with
    | str name' =>
      have hne : name' ∉ [name] := by
        intro hmem
        obtain rfl := List.mem_singleton.1 hmem
        exact hkey rfl
      exact checkedParam_of_not_mem hne y
    | _ => rfl
  induction params with
  | nil => rfl
  | cons e rest ih =>
    obtain ⟨l, y⟩ := e
    obtain ⟨hl, hrest⟩ := List.pairwise_cons.1 hparams
    show _ = (l, checkedParam hooks v [name] l y) :: checkedParams hooks v [name] rest
    unfold Entries.contains at *
    rw [Entries.lookup] at hx ⊢
    by_cases hkey : l.key? = (Value.str name).key?
    · obtain rfl := Value.eq_str_of_key? hkey
      rw [if_pos rfl] at hx
      -- This is the only entry with that key.
      have hsame : checkedParams hooks v [name] rest = rest :=
        checkedParams_eq_self fun e he => hother e.1 e.2 (hl e he).symm
      have hvalue : checkedParam hooks v [name] (.str name) y = x := by
        rw [checkedParam_of_mem List.mem_cons_self, hf]
        dsimp only
        rw [hx]
        rfl
      rw [if_pos rfl, Option.isSome_some, if_pos rfl, Entries.insert, if_pos rfl, hsame, hvalue]
    · rw [if_neg hkey] at hx ⊢
      rw [← ih hrest hx, Entries.insert, if_neg hkey, hother l y hkey]
      split <;> rfl

/-- Which value is checked is a matter of the declarations. -/
theorem checkedParams_resetFields (done : List String) (params : Entries Value) :
    checkedParams hooks v.resetFields done params = checkedParams hooks v done params := by
  have hlookup : ∀ k, v.resetFields.fields.lookup k = (v.fields.lookup k).map Field.reset :=
    fun k => Entries.lookup_mapValues _ _ k
  unfold checkedParams
  refine List.map_congr_left fun e _ => ?_
  obtain ⟨key, x⟩ := e
  refine congrArg (key, ·) ?_
  cases key with
  | str name =>
    unfold checkedParam
    dsimp only
    rw [hlookup]
    cases v.fields.lookup (.str name) <;> rfl
  | _ => rfl

/-! ## Turns -/

/-- The state in which its turn leaves a field, given the value that is checked and the parameters of
the run after the turn. -/
def turned (search : PatternSearch) (v : Validator) (plan : Plan) (f : Field) (name : String)
    (x : Value) (params : Entries Value) : Field :=
  let f := { f with toggle := (plan.toggles.lookup (.str name)).getD .declared }
  ({ f with value := x } : Field).recorded (f.expected search v.directives x ⟨params, v.fields⟩)

/-- All checks of a validator are built in, its fields have the names that they are declared under,
and none of them has a validation callback. -/
structure Plain (v : Validator) : Prop where
  checks : v.directives.OnlyBuiltin
  names : ∀ e ∈ v.fields, e.2.name = e.1
  validation : ∀ e ∈ v.fields, e.2.validation.isCallback = false

/-- The key of the caller under which a name has its parameter. -/
def source (plan : Plan) (name : String) : Value :=
  (plan.sources.lookup (.str name)).getD (.str name)

variable {plan : Plan} {run run' : Run} {u : Unit}

/-- The turn of a name that is no field changes neither parameters nor fields. -/
theorem checkName_of_no_field {name : String} (hf : run.fields.lookup (.str name) = none)
    (h : Returns (Run.checkName hooks v plan name) run u run') :
    run'.params = run.params ∧ run'.fields = run.fields ∧ run'.filtered = run.filtered := by
  rw [Run.checkName, Returns.get_bind_iff] at h
  rw [hf] at h
  simp only [Run.unknown, Returns.bind_iff, Returns.get_iff, Returns.liftM_iff,
    Returns.set_iff] at h
  obtain ⟨_, _, ⟨rfl, rfl⟩, journal, _, ⟨-, rfl⟩, rfl⟩ := h
  exact ⟨rfl, rfl, rfl⟩

/-- The turn of a field takes its value into the run and leaves the field with the messages that are
expected of that. -/
theorem checkName_of_field (hv : v.Plain) {name : String} {f : Field} (hkeeps : run.Keeps v.fields)
    (hf : run.fields.lookup (.str name) = some f)
    (h : Returns (Run.checkName hooks v plan name) run u run') :
    ∃ x taken toggle,
      Returns (Run.takeValue hooks v plan (.str name) { f with toggle })
        { run with fields := run.fields.insert (.str name) { f with toggle } } x taken ∧
      run'.params = taken.params ∧ run'.filtered = taken.filtered ∧
      (∀ k, (Value.str name).key? ≠ k.key? → run'.fields.lookup k = run.fields.lookup k) ∧
      run'.fields.lookup (.str name) = some (turned hooks.search v plan f name x run'.params) := by
  rw [Run.checkName, Returns.get_bind_iff] at h
  rw [hf] at h
  obtain ⟨hname, hself⟩ := hkeeps.lookup_turn hv.names hf
  simp only [Run.setField, Returns.bind_iff, Returns.modify_iff] at h
  obtain ⟨_, _, rfl, hcheck⟩ := h
  -- The turn begins with the name and the toggle, of which the name is what it was.
  generalize htoggle : (plan.toggles.lookup (.str name)).getD .declared = toggle at hcheck
  have hsame : ({ f with name := .str name, toggle } : Field) = { f with toggle } := by
    rw [← hname]
  rw [hsame] at hcheck
  have hself' := hself toggle
  rw [hsame] at hself'
  have hkeeps' : Run.Keeps v.fields
      { run with fields := run.fields.insert (.str name) { f with toggle } } :=
    hkeeps.insert hself'
  obtain ⟨l, hl, -⟩ := Entries.exists_mem_of_lookup hself'
  have hvalidation : ({ f with toggle } : Field).validation.isCallback = false :=
    hv.validation _ hl
  have hset : Entries.lookup (run.fields.insert (.str name) { f with toggle }) (.str name) =
      some { f with toggle } := by
    rw [Entries.lookup_insert, if_pos rfl]
  obtain ⟨x, taken, htaken, hparams, hfiltered, hfields⟩ :=
    Run.checkField_eq hv.checks hset hvalidation hcheck
  refine ⟨x, taken, toggle, htaken, hparams, hfiltered, fun k hk => ?_, ?_⟩
  · rw [hfields, Entries.lookup_insert, if_neg hk, Entries.lookup_insert, if_neg hk]
  · rw [hfields, Entries.lookup_insert, if_pos rfl, turned, htoggle, hparams,
      Field.expected_congr hooks.search v.directives x rfl rfl (hkeeps'.alike taken.params)]

/-- The turn of a name sets the parameter of its field to the value that is checked. -/
theorem checkName_params (hv : v.Plain) {name : String} (hkeeps : run.Keeps v.fields)
    (hparams : run.params.Distinct) (h : Returns (Run.checkName hooks v plan name) run u run') :
    run'.params = checkedParams hooks v [name] run.params := by
  cases hf : run.fields.lookup (.str name) with
  | none =>
    -- A name that is no field of the run is none of the validator.
    have hfield : v.fields.lookup (.str name) = none := by
      rw [← hkeeps, Entries.lookup_mapValues, hf]
      rfl
    rw [(checkName_of_no_field hf h).1, checkedParams_of_no_field hfield]
  | some f =>
    obtain ⟨x, taken, toggle, htaken, hrun, -⟩ := checkName_of_field hv hkeeps hf h
    obtain ⟨hx, -, htakenParams, -⟩ := Run.takeValue_eq htaken
    rw [hrun, htakenParams]
    exact checkedParams_of_field (hkeeps.lookup hf) hparams hx

/-- The turn of a name leaves the state of other fields. -/
theorem checkName_fields (hv : v.Plain) {name : String} (hkeeps : run.Keeps v.fields) {k : Value}
    (hk : (Value.str name).key? ≠ k.key?)
    (h : Returns (Run.checkName hooks v plan name) run u run') :
    run'.fields.lookup k = run.fields.lookup k := by
  cases hf : run.fields.lookup (.str name) with
  | none => rw [(checkName_of_no_field hf h).2.1]
  | some f =>
    obtain ⟨x, taken, toggle, -, -, -, hothers, -⟩ := checkName_of_field hv hkeeps hf h
    exact hothers k hk

/-- The turn of a name keeps at most one filtered value, that of the key that supplied the field. -/
theorem checkName_filtered (hv : v.Plain) {name : String} (hkeeps : run.Keeps v.fields)
    (h : Returns (Run.checkName hooks v plan name) run u run') :
    ∃ filtered : Option Value,
      (run'.filtered = match filtered with
        | some w => run.filtered.insert (source plan name) w
        | none => run.filtered) ∧
      (run.fields.lookup (.str name) = none → filtered = none) ∧
      (run.params.lookup (.str name) = none → filtered = none) ∧
      ∀ f p, run.fields.lookup (.str name) = some f → run.params.lookup (.str name) = some p →
        runFilters hooks.filter v.filters f.filters p = .ok (filtered.getD p) := by
  cases hf : run.fields.lookup (.str name) with
  | none =>
    exact ⟨none, (checkName_of_no_field hf h).2.2, fun _ => rfl, fun _ => rfl,
      fun f p hf' => by cases hf'⟩
  | some f =>
    obtain ⟨x, taken, toggle, htaken, -, hrun, -⟩ := checkName_of_field hv hkeeps hf h
    obtain ⟨-, -, -, filtered, hfiltered, hnone, hsome⟩ := Run.takeValue_eq htaken
    refine ⟨filtered, hrun.trans hfiltered, (by simp), hnone, fun f' p hf' hp => ?_⟩
    obtain rfl := Option.some.inj hf'
    exact hsome p hp

/-! ## Turns in a row -/

/-- Turns can be taken in two goes. -/
theorem checkFields_append {before : List String} (after : List String) :
    ∀ {run : Run}, Returns (Run.checkFields hooks v plan (before ++ after)) run u run' →
      ∃ r, Returns (Run.checkFields hooks v plan before) run () r ∧
        Returns (Run.checkFields hooks v plan after) r u run' := by
  induction before with
  | nil => exact fun {run} h => ⟨run, rfl, h⟩
  | cons name rest ih =>
    intro run h
    obtain ⟨_, w, hname, hrest⟩ := Returns.bind_iff.1 h
    obtain ⟨r, hbefore, hafter⟩ := ih hrest
    exact ⟨r, Returns.bind_iff.2 ⟨(), w, hname, hbefore⟩, hafter⟩

/-- Turns leave the declarations as they are and the parameters under their keys. -/
theorem checkName_keeps (hv : v.Plain) {name : String} (hkeeps : run.Keeps v.fields)
    (h : Returns (Run.checkName hooks v plan name) run u run') : run'.Keeps v.fields :=
  h.leaves_iff.1 (Run.checkName_keeps hooks v plan hv.names hkeeps name)

/-- After turns the parameters of the run are those in which the fields have the values that are
checked. -/
theorem checkFields_params (hv : v.Plain) {names : List String} (hnames : names.Nodup) :
    ∀ {run : Run}, run.Keeps v.fields → run.params.Distinct →
      Returns (Run.checkFields hooks v plan names) run u run' →
        run'.params = checkedParams hooks v names run.params := by
  induction names with
  | nil =>
    intro run hkeeps hparams h
    obtain ⟨-, rfl⟩ := Returns.pure_iff.1 h
    exact (checkedParams_nil _).symm
  | cons name rest ih =>
    intro run hkeeps hparams h
    obtain ⟨hname, hrest⟩ := List.nodup_cons.1 hnames
    obtain ⟨_, w, hturn, hothers⟩ := Returns.bind_iff.1 h
    have hw := checkName_params hv hkeeps hparams hturn
    have hdistinct : w.params.Distinct := by
      rw [hw]
      exact hparams.of_keys (keys_checkedParams _ _)
    -- The other turns start from parameters in which the first field has its value.
    rw [ih hrest (checkName_keeps hv hkeeps hturn) hdistinct hothers, hw,
      checkedParams_checkedParams]
    · rfl
    · intro n hn
      obtain rfl := List.mem_singleton.1 hn
      exact hname

/-- Turns leave the state of other fields. -/
theorem checkFields_fields (hv : v.Plain) {names : List String} {k : Value}
    (hk : ∀ name ∈ names, (Value.str name).key? ≠ k.key?) :
    ∀ {run : Run}, run.Keeps v.fields → Returns (Run.checkFields hooks v plan names) run u run' →
      run'.fields.lookup k = run.fields.lookup k := by
  induction names with
  | nil =>
    intro run hkeeps h
    obtain ⟨-, rfl⟩ := Returns.pure_iff.1 h
    rfl
  | cons name rest ih =>
    intro run hkeeps h
    obtain ⟨_, w, hturn, hothers⟩ := Returns.bind_iff.1 h
    rw [ih (fun n hn => hk n (List.mem_cons_of_mem _ hn)) (checkName_keeps hv hkeeps hturn) hothers,
      checkName_fields hv hkeeps (hk name List.mem_cons_self) hturn]

/-- Turns leave the filtered values of keys that supply none of their fields. -/
theorem checkFields_filtered (hv : v.Plain) {names : List String} {k : Value}
    (hk : ∀ name ∈ names, ∀ f, v.fields.lookup (.str name) = some f →
      (source plan name).key? ≠ k.key?) :
    ∀ {run : Run}, run.Keeps v.fields → Returns (Run.checkFields hooks v plan names) run u run' →
      run'.filtered.lookup k = run.filtered.lookup k := by
  induction names with
  | nil =>
    intro run hkeeps h
    obtain ⟨-, rfl⟩ := Returns.pure_iff.1 h
    rfl
  | cons name rest ih =>
    intro run hkeeps h
    obtain ⟨_, w, hturn, hothers⟩ := Returns.bind_iff.1 h
    rw [ih (fun n hn => hk n (List.mem_cons_of_mem _ hn)) (checkName_keeps hv hkeeps hturn) hothers]
    obtain ⟨filtered, hw, hnone, -⟩ := checkName_filtered hv hkeeps hturn
    rw [hw]
    cases filtered with
    | none => rfl
    | some w =>
      cases hf : run.fields.lookup (.str name) with
      | none => cases hnone hf
      -- The turn keeps a filtered value for the key that supplies its field, which is another one.
      | some f =>
        have hne := hk name List.mem_cons_self _ (hkeeps.lookup hf)
        dsimp only
        rw [Entries.lookup_insert, if_neg hne]

/-- Filtered values are kept under different keys. -/
theorem distinct_filtered (hv : v.Plain) {names : List String} :
    ∀ {run : Run}, run.Keeps v.fields → run.filtered.Distinct →
      Returns (Run.checkFields hooks v plan names) run u run' → run'.filtered.Distinct := by
  induction names with
  | nil =>
    intro run hkeeps hdistinct h
    obtain ⟨-, rfl⟩ := Returns.pure_iff.1 h
    exact hdistinct
  | cons name rest ih =>
    intro run hkeeps hdistinct h
    obtain ⟨_, w, hturn, hothers⟩ := Returns.bind_iff.1 h
    refine ih (checkName_keeps hv hkeeps hturn) ?_ hothers
    obtain ⟨filtered, hw, -⟩ := checkName_filtered hv hkeeps hturn
    rw [hw]
    cases filtered with
    | none => exact hdistinct
    | some w => exact hdistinct.insert _ w

/-- What surrounds the turn of a name: it starts with the parameter and the field of that name as they
were before all turns, and no later turn changes its outcome. -/
theorem checkFields_turn (hv : v.Plain) {before after : List String} {name : String}
    (hnames : (before ++ name :: after).Nodup) (hkeeps : run.Keeps v.fields)
    (hparams : run.params.Distinct)
    (h : Returns (Run.checkFields hooks v plan (before ++ name :: after)) run u run') :
    ∃ r w,
      Returns (Run.checkFields hooks v plan before) run () r ∧
      Returns (Run.checkName hooks v plan name) r () w ∧
      Returns (Run.checkFields hooks v plan after) w u run' ∧
      r.Keeps v.fields ∧ w.Keeps v.fields ∧
      r.params.lookup (.str name) = run.params.lookup (.str name) ∧
      w.params = checkedParams hooks v (before ++ [name]) run.params ∧
      r.fields.lookup (.str name) = run.fields.lookup (.str name) ∧
      run'.fields.lookup (.str name) = w.fields.lookup (.str name) := by
  obtain ⟨hbefore, hafter, hdisjoint⟩ := List.nodup_append.1 hnames
  obtain ⟨hname, -⟩ := List.nodup_cons.1 hafter
  have hnot : name ∉ before := fun hmem => hdisjoint name hmem name List.mem_cons_self rfl
  obtain ⟨r, hfirst, hrest⟩ := checkFields_append (name :: after) h
  obtain ⟨_, w, hturn, hlast⟩ := Returns.bind_iff.1 hrest
  have hrkeeps : r.Keeps v.fields :=
    hfirst.leaves_iff.1 (Run.checkFields_keeps hooks v plan hv.names before hkeeps)
  have hrparams := checkFields_params hv hbefore hkeeps hparams hfirst
  have hrdistinct : r.params.Distinct := by
    rw [hrparams]
    exact hparams.of_keys (keys_checkedParams _ _)
  have hwkeeps := checkName_keeps hv hrkeeps hturn
  -- Different names are different keys.
  have hkeys : ∀ {names : List String}, name ∉ names →
      ∀ n ∈ names, (Value.str n).key? ≠ (Value.str name).key? := by
    intro names hmem n hn hkey
    obtain rfl := Value.str.inj (Value.eq_str_of_key? hkey)
    exact hmem hn
  refine ⟨r, w, hfirst, hturn, hlast, hrkeeps, hwkeeps, ?_, ?_, ?_, ?_⟩
  · rw [hrparams, lookup_checkedParams_of_not_mem hnot]
  · rw [checkName_params hv hrkeeps hrdistinct hturn, hrparams, checkedParams_checkedParams]
    intro n hn hmem
    obtain rfl := List.mem_singleton.1 hmem
    exact hnot hn
  · exact checkFields_fields hv (hkeys hnot) hkeeps hfirst
  · exact checkFields_fields hv (hkeys hname) hwkeeps hlast

/-! ## Whole runs -/

/-- A whole run of a validator: a plan, the state after planning, and the turns of the selected
names from there. -/
structure Ran (hooks : Hooks) (v : Validator) (targets : List Value) (plan : Plan)
    (run₀ run : Run) : Prop where
  planned : Returns (v.resetFields.plan targets)
    { params := v.params, fields := v.resetFields.fields } plan run₀
  turns : Returns (Run.checkFields hooks v.resetFields plan plan.selected) run₀ () run
  params_after : (v.validate hooks targets).validator.params = writeBack v.params run.filtered
  fields_after : (v.validate hooks targets).validator.fields = run.fields
  plain : v.resetFields.Plain
  fields : run₀.fields = v.resetFields.fields
  filtered : run₀.filtered = []
  distinct : run₀.params.Distinct
  nodup : plan.selected.Nodup

variable {targets : List Value} {run₀ : Run}

/-- A consistent validator with the directives that are always at hand is plain, once its fields are
reset, if it has no validation callbacks. -/
theorem Consistent.plain (hv : v.Consistent) (hdirectives : v.directives = .builtin)
    (hcallback : ∀ e ∈ v.fields, e.2.validation.isCallback = false) : v.resetFields.Plain := by
  have hreset : ∀ e ∈ v.resetFields.fields, ∃ f, (e.1, f) ∈ v.fields ∧ e.2 = f.reset := by
    intro e he
    obtain ⟨e', he', rfl⟩ := List.mem_map.1 he
    exact ⟨e'.2, he', rfl⟩
  refine ⟨?_, ?_, ?_⟩
  · exact hdirectives ▸ DirectiveTable.onlyBuiltin_builtin
  · intro e he
    obtain ⟨f, hf, heq⟩ := hreset e he
    rw [heq]
    exact hv.names _ hf
  · intro e he
    obtain ⟨f, hf, heq⟩ := hreset e he
    rw [heq]
    exact hcallback _ hf

/-- The turns start with the declared fields. -/
theorem plan_keeps (h : Returns (v.resetFields.plan targets)
    { params := v.params, fields := v.resetFields.fields } plan run) :
    run.Keeps v.resetFields.fields := by
  obtain ⟨_, _, _, _, hplanned⟩ := plan_eq h
  exact Run.keeps_reset v.fields hplanned.fields_eq

/-- Each of the turns is that of another name. -/
theorem Consistent.nodup_selected (hv : v.Consistent) (h : Returns (v.resetFields.plan targets)
    { params := v.params, fields := v.resetFields.fields } plan run) : plan.selected.Nodup :=
  Validator.nodup_selected hv.params_distinct hv.resetFields.fields_distinct h

/-- A run that returns consists of its plan and of turns. -/
theorem exists_ran {b : Bool} (hv : v.Consistent) (hdirectives : v.directives = .builtin)
    (hcallback : ∀ e ∈ v.fields, e.2.validation.isCallback = false)
    (h : (v.validate hooks targets).answer = .ok b) :
    ∃ plan run₀ run, Ran hooks v targets plan run₀ run := by
  obtain ⟨plan, run₀, run, hplan, hturns, hparams, hfields, -⟩ := validate_ok h
  obtain ⟨_, _, _, _, hplanned⟩ := plan_eq hplan
  exact ⟨plan, run₀, run, hplan, hturns, hparams, hfields, hv.plain hdirectives hcallback,
    hplanned.fields_eq, hplanned.filtered_eq, distinct_plan hv.params_distinct hplan,
    hv.nodup_selected hplan⟩

/-- The turns of a run that returns start with the declared fields. -/
theorem Ran.keeps (h : Ran hooks v targets plan run₀ run) : run₀.Keeps v.resetFields.fields :=
  plan_keeps h.planned

/-- A declared field is found in its first state when all fields are reset. -/
theorem lookup_resetFields {v : Validator} {name : Value} {f : Field}
    (hf : v.fields.lookup name = some f) : v.resetFields.fields.lookup name = some f.reset := by
  have hreset : v.resetFields.fields = v.fields.mapValues Field.reset := rfl
  rw [hreset, Entries.lookup_mapValues, hf]
  rfl

/-- What is declared is found when all fields are reset. -/
theorem lookup_resetFields_eq_none_iff {v : Validator} {k : Value} :
    v.resetFields.fields.lookup k = none ↔ v.fields.lookup k = none := by
  rw [show v.resetFields.fields = v.fields.mapValues Field.reset from rfl,
    Entries.lookup_mapValues, Option.map_eq_none_iff]

/-- The turns start with fields that have neither values nor messages. -/
theorem Ran.lookup (h : Ran hooks v targets plan run₀ run) (k : Value) :
    run₀.fields.lookup k = (v.fields.lookup k).map Field.reset := by
  rw [h.fields]
  exact Entries.lookup_mapValues _ _ k

/-- A field that has no turn is left as it is before any run. -/
theorem Ran.lookup_of_no_turn (h : Ran hooks v targets plan run₀ run) {k : Value}
    (hother : ∀ name ∈ plan.selected, (Value.str name).key? ≠ k.key?) :
    run.fields.lookup k = (v.fields.lookup k).map Field.reset := by
  rw [checkFields_fields h.plain hother h.keeps h.turns, h.lookup]

/-- The state in which its turn leaves a selected field. -/
theorem Ran.lookup_selected (hran : Ran hooks v targets plan run₀ run)
    {before after : List String} {name : String} (hsplit : plan.selected = before ++ name :: after)
    {f : Field} (hf : v.fields.lookup (.str name) = some f) :
    ∃ x, f.checkedValue hooks.filter v.filters (run₀.params.lookup (.str name)) = .ok x ∧
      run.fields.lookup (.str name) = some (turned hooks.search v.resetFields plan f.reset name x
        (checkedParams hooks v (before ++ [name]) run₀.params)) := by
  have hnodup := hran.nodup
  have hturns := hran.turns
  rw [hsplit] at hnodup hturns
  obtain ⟨r, w, -, hturn, -, hkeeps, -, hparam, hparams, hfield, hlast⟩ :=
    checkFields_turn hran.plain hnodup hran.keeps hran.distinct hturns
  have hreset : r.fields.lookup (.str name) = some f.reset := by
    rw [hfield, hran.lookup, hf]
    rfl
  obtain ⟨x, taken, toggle, htaken, -, -, -, hstate⟩ :=
    checkName_of_field hran.plain hkeeps hreset hturn
  obtain ⟨hx, -⟩ := Run.takeValue_eq htaken
  rw [hparam] at hx
  refine ⟨x, hx, ?_⟩
  rw [hlast, hstate, hparams, checkedParams_resetFields]

end ParamCheck.Validator
