import ParamCheck.Proofs.Validator.Upkeep

/-!
# The turn of a field

In a run every selected field has its turn. If all checks are built in and there is no validation
callback, a turn does no more than this: it sets the field's parameter to the value that is checked
(`Field.checkedValue`), and it records the messages of the checks that fail (`Field.expected`) with
the field and in the report (`Run.checkField_eq`).
-/

namespace ParamCheck

namespace Field

/-- The value, or the default in place of the empty text if there is a default. -/
def orDefault (f : Field) (v : Value) : Value :=
  match v, f.default with
  | .str "", .null => v
  | .str "", d => d
  | v, _ => v

/-- The value that is checked: the parameter, if there is one, after the filters and with the
default in place of the empty text, or else the default. -/
def checkedValue (hook : FilterHook) (table : FilterTable) (f : Field) :
    Option Value → Except Fault Value
  | none => .ok f.default
  | some v => (runFilters hook table f.filters v).map f.orDefault

/-- The messages of the checks of directives that a value fails. -/
def failures (search : PatternSearch) (table : DirectiveTable) (value : Value) (f : Field)
    (scene : Scene) (ds : List (Value × Value)) : List Value :=
  ds.flatMap fun (key, argument) =>
    match table.check? key with
    | some (.builtin c) => (c.script search argument value f scene).messages
    | _ => []

/-- The messages of a field: that it is required and blank, or else, if it is required or has a
value, those of the checks that the value fails. -/
def expected (search : PatternSearch) (table : DirectiveTable) (value : Value) (f : Field)
    (scene : Scene) : List Value :=
  if f.isRequired && value.isBlank then [.str (f.handle.text ++ " is required")]
  else if f.isRequired || value.hasValue then failures search table value f scene f.directives
  else []

/-- The field after messages have been recorded against it. -/
def recorded (f : Field) (messages : List Value) : Field :=
  { f with errors := Report.addAll f.errors (messages.map (Report.effective f)) }

/-- Messages that are recorded in two goes are recorded in one. -/
theorem recorded_recorded (f : Field) (ms ms' : List Value) :
    (f.recorded ms).recorded ms' = f.recorded (ms ++ ms') := by
  have heffective : Report.effective (f.recorded ms) = Report.effective f := rfl
  unfold recorded at *
  simp only [heffective, List.map_append, Report.addAll_append]

/-- A directive without a check has no messages. -/
theorem failures_cons_none {search : PatternSearch} {table : DirectiveTable} {key : Value}
    (h : table.check? key = none) (value : Value) (f : Field) (scene : Scene) (argument : Value)
    (ds : List (Value × Value)) :
    failures search table value f scene ((key, argument) :: ds) = failures search table value f scene ds := by
  show (match table.check? key with
    | some (.builtin c) => (c.script search argument value f scene).messages
    | _ => []) ++ failures search table value f scene ds = _
  rw [h]
  rfl

/-- A directive with a check has the messages of that. -/
theorem failures_cons_builtin {search : PatternSearch} {table : DirectiveTable} {key : Value} {c : BuiltinCheck}
    (h : table.check? key = some (.builtin c)) (value : Value) (f : Field) (scene : Scene) (argument : Value)
    (ds : List (Value × Value)) :
    failures search table value f scene ((key, argument) :: ds) =
      (c.script search argument value f scene).messages ++ failures search table value f scene ds := by
  show (match table.check? key with
    | some (.builtin c) => (c.script search argument value f scene).messages
    | _ => []) ++ failures search table value f scene ds = _
  rw [h]

/-- The handle is a matter of the declaration. -/
theorem handle_congr {f g : Field} (h : f.reset = g.reset) : f.handle = g.handle := by
  have hd : f.reset.directives = g.reset.directives := congrArg directives h
  have hn : f.reset.name = g.reset.name := congrArg name h
  change f.directives = g.directives at hd
  change f.name = g.name at hn
  unfold handle label directive
  rw [hd, hn]

/-- Which checks a value fails depends on the handle of the field, the parameters and the handles of
all fields. -/
theorem failures_congr (search : PatternSearch) (table : DirectiveTable) (value : Value) {f g : Field}
    (hf : f.handle = g.handle) {s s' : Scene} (hs : s.Alike s') (ds : List (Value × Value)) :
    failures search table value f s ds = failures search table value g s' ds := by
  have hscript : ∀ (c : BuiltinCheck) (argument : Value),
      c.script search argument value f s = c.script search argument value g s' :=
    fun c argument => c.script_congr search argument value hf hs
  unfold failures
  simp only [hscript]

/-- Which messages are expected of a field depends on its declaration, its toggle, the parameters and
the handles of all fields. -/
theorem expected_congr (search : PatternSearch) (table : DirectiveTable) (value : Value) {f g : Field}
    (h : f.reset = g.reset) (htoggle : f.toggle = g.toggle) {s s' : Scene} (hs : s.Alike s') :
    f.expected search table value s = g.expected search table value s' := by
  have hd : f.reset.directives = g.reset.directives := congrArg directives h
  change f.directives = g.directives at hd
  have hrequired : f.isRequired = g.isRequired := by
    unfold isRequired required directive
    rw [htoggle, hd]
  unfold expected
  rw [hrequired, handle_congr h, failures_congr search table value (handle_congr h) hs, hd]

/-- What the filters make of a parameter is what runs them, if they run at all. -/
theorem filtered?_ok {hook : FilterHook} {table : FilterTable} {f : Field} {v : Value}
    {filtered : Option Value} (h : f.filtered? hook table v = .ok filtered) :
    runFilters hook table f.filters v = .ok (filtered.getD v) := by
  unfold filtered? at h
  split at h
  · next text =>
    split at h
    · next hempty =>
      obtain rfl := Except.ok.inj h
      rw [List.isEmpty_iff.1 hempty]
      rfl
    · obtain ⟨w, hrun, rfl⟩ := map_eq_ok_iff.1 h
      exact hrun
  · next hother =>
    obtain rfl := Except.ok.inj h
    unfold runFilters
    split
    · next text => exact absurd rfl (hother text)
    · rfl

/-- A field is supplied with the value that is checked. -/
theorem completed_value (f : Field) (v : Value) (filtered : Option Value) :
    (f.completed v filtered).value = f.orDefault (filtered.getD v) ∧
      (f.completed v filtered).filtered = filtered ∧
      ((f.completed v filtered).isDefault = false →
        (f.completed v filtered).value = filtered.getD v) := by
  unfold completed orDefault
  generalize filtered.getD v = w
  generalize f.default = d
  -- The default can take the place of the empty text only.
  by_cases hw : w = .str ""
  · subst hw
    cases d <;> simp
  · split <;> simp_all

end Field

namespace Run

/-! ## Recording messages -/

/-- The run after messages have been recorded against a field. -/
def withMessages (run : Run) (name : Value) (f : Field) (messages : List Value) : Run :=
  { run with
    fields := run.fields.insert name (f.recorded messages)
    messages := Report.addAll run.messages (messages.map (Report.effective f)) }

/-- The field against which messages have been recorded. -/
theorem lookup_withMessages (run : Run) (name : Value) (f : Field) (messages : List Value) :
    (run.withMessages name f messages).fields.lookup name = some (f.recorded messages) := by
  show Entries.lookup (Entries.insert _ _ _) _ = _
  rw [Entries.lookup_insert, if_pos rfl]

/-- A run in which no messages are recorded against a field stays as it is. -/
theorem withMessages_nil {run : Run} {name : Value} {f : Field}
    (hf : run.fields.lookup name = some f) : run.withMessages name f [] = run := by
  show ({ run with fields := run.fields.insert name f } : Run) = run
  rw [Entries.insert_of_lookup hf]

/-- Messages that are recorded in two goes are recorded in one. -/
theorem withMessages_withMessages (run : Run) (name : Value) (f : Field) (ms ms' : List Value) :
    (run.withMessages name f ms).withMessages name (f.recorded ms) ms' =
      run.withMessages name f (ms ++ ms') := by
  have heffective : Report.effective (f.recorded ms) = Report.effective f := rfl
  unfold withMessages
  simp only [heffective, Entries.insert_insert, Field.recorded_recorded, List.map_append,
    Report.addAll_append]

/-- A message that is recorded is recorded with the field of that name. -/
theorem record_eq {run run' : Run} {name message : Value} {u : Unit} {f : Field}
    (hf : run.fields.lookup name = some f) (h : Returns (record name message) run u run') :
    run' = run.withMessages name f [message] := by
  rw [record, Returns.get_bind_iff] at h
  rw [hf] at h
  obtain ⟨r, w, hrecord, hset⟩ := Returns.bind_iff.1 h
  obtain ⟨hr, rfl⟩ := Returns.liftM_iff.1 hrecord
  obtain ⟨-, rfl⟩ := Report.record_ok_iff.1 hr
  exact (Returns.set_iff.1 hset).symm

/-- A message about a field that is recorded begins with its handle. -/
theorem complain_eq {run run' : Run} {name : Value} {words : String} {u : Unit} {f g : Field}
    (hg : run.fields.lookup name = some g) (h : Returns (complain name f words) run u run') :
    run' = run.withMessages name g [.str (f.handle.text ++ words)] := by
  obtain ⟨handle, w, hwrite, h⟩ := Returns.bind_iff.1 h
  obtain ⟨hhandle, rfl⟩ := Returns.liftM_iff.1 hwrite
  obtain ⟨-, rfl⟩ := Value.write_eq_ok_iff.1 hhandle
  exact record_eq hg h

/-- Messages that are recorded one after the other are recorded in order. -/
theorem perform_eq {name : Value} (messages : List Value) :
    ∀ {run run' : Run} {u : Unit} {f : Field}, run.fields.lookup name = some f →
      Returns (perform name (messages.map .record)) run u run' →
        run' = run.withMessages name f messages := by
  induction messages with
  | nil =>
    intro run run' u f hf h
    rw [List.map_nil, perform, Returns.pure_iff] at h
    rw [withMessages_nil hf]
    exact h.2.symm
  | cons message rest ih =>
    intro run run' u f hf h
    rw [List.map_cons, perform, Returns.bind_iff] at h
    obtain ⟨_, w, hrecord, hrest⟩ := h
    obtain rfl := record_eq hf hrecord
    rw [ih (lookup_withMessages run name f [message]) hrest, withMessages_withMessages,
      List.singleton_append]

/-- Recording messages against a field leaves scenes alike. -/
theorem alike_withMessages {run : Run} {name : Value} {f : Field}
    (hf : run.fields.lookup name = some f) (messages : List Value) :
    (run.withMessages name f messages).scene.Alike run.scene := by
  refine ⟨rfl, fun k => ?_⟩
  show Option.map _ (Entries.lookup (Entries.insert _ _ _) k) = _
  rw [Entries.lookup_insert]
  split
  · next hk =>
    show _ = Option.map Field.handle (Entries.lookup run.fields k)
    rw [← Entries.lookup_congr hk, hf]
    rfl
  · rfl

variable {hooks : Hooks} {v : Validator} {plan : Plan}

/-- The checks of directives record the messages of those that the value fails. -/
theorem checkDirectives_eq (hbuiltin : v.directives.OnlyBuiltin) {name value : Value}
    (ds : List (Value × Value)) :
    ∀ {run run' : Run} {u : Unit} {f : Field}, run.fields.lookup name = some f →
      Returns (checkDirectives hooks v name value ds) run u run' →
        run' = run.withMessages name f (f.failures hooks.search v.directives value run.scene ds) := by
  induction ds with
  | nil =>
    intro run run' u f hf h
    rw [checkDirectives, Returns.pure_iff] at h
    exact h.2.symm.trans (withMessages_nil hf).symm
  | cons d rest ih =>
    intro run run' u f hf h
    obtain ⟨key, argument⟩ := d
    rw [checkDirectives] at h
    cases hcheck : v.directives.check? key with
    | none =>
      rw [hcheck] at h
      rw [ih hf h, Field.failures_cons_none hcheck]
    | some check =>
      obtain ⟨c, rfl⟩ := hbuiltin key check hcheck
      rw [hcheck] at h
      simp only [Returns.bind_iff, Returns.get_iff] at h
      obtain ⟨_, _, ⟨rfl, rfl⟩, _, w, hplay, hrest⟩ := h
      rw [hf, Option.getD_some, play] at hplay
      simp only [Returns.bind_iff, Returns.liftM_iff] at hplay
      obtain ⟨_, _, hperform, _, rfl⟩ := hplay
      have hrecords := c.records hooks.search argument value f run.scene
      change Returns (perform name (c.script hooks.search argument value f run.scene).effects) _ _ _ at hperform
      rw [hrecords] at hperform
      obtain rfl := perform_eq _ hf hperform
      rw [ih (lookup_withMessages _ _ _ _) hrest, withMessages_withMessages]
      -- The messages so far change nothing that later checks go by.
      have hhandle : (f.recorded (c.script hooks.search argument value f run.scene).messages).handle =
        f.handle := rfl
      rw [Field.failures_congr hooks.search v.directives value hhandle (alike_withMessages hf _),
        Field.failures_cons_builtin hcheck]

/-- A field without a validation callback has nothing to validate. -/
theorem checkValidation_eq {run run' : Run} {name : Value} {u : Unit} {f : Field}
    (hf : run.fields.lookup name = some f) (hcallback : f.validation.isCallback = false)
    (h : Returns (checkValidation hooks name) run u run') : run' = run := by
  rw [checkValidation, Returns.get_bind_iff] at h
  rw [hf, Option.getD_some] at h
  dsimp only at h
  split at h
  · exact (Returns.pure_iff.1 h).2.symm
  · next hook hvalidation =>
    rw [hvalidation] at hcallback
    cases hcallback
  · exact absurd h Returns.throw_iff.1

/-- Checking the value of a field records the messages that are expected. -/
theorem checkValue_eq (hbuiltin : v.directives.OnlyBuiltin) {run run' : Run} {name value : Value}
    {u : Unit} {f g : Field} (hg : run.fields.lookup name = some g)
    (hdeclared : g.directives = f.directives) (hhandle : g.handle = f.handle)
    (hcallback : f.validation.isCallback = false)
    (h : Returns (checkValue hooks v plan name value f) run u run') :
    run' = run.withMessages name g (f.expected hooks.search v.directives value run.scene) := by
  -- Nothing comes after the checks of the directives.
  have hlast : ∀ {run run' : Run} {u : Unit} {g : Field}, run.fields.lookup name = some g →
      g.directives = f.directives →
        Returns (if plan.hasParams then checkValidation hooks name else pure ()) run u run' →
          run' = run := by
    intro run run' u g hg hdeclared h
    have hvalidation : g.validation = f.validation := by
      unfold Field.validation Field.directive
      rw [hdeclared]
    split at h
    · exact checkValidation_eq hg (hvalidation ▸ hcallback) h
    · exact (Returns.pure_iff.1 h).2.symm
  unfold checkValue at h
  unfold Field.expected
  split at h
  · next hrequired =>
    rw [if_pos hrequired]
    exact complain_eq hg h
  · next hrequired =>
    rw [if_neg hrequired]
    dsimp only at h
    split at h
    · next hvalue =>
      rw [if_pos hvalue]
      obtain ⟨_, w, hchecks, h⟩ := Returns.bind_iff.1 h
      obtain rfl := checkDirectives_eq hbuiltin f.directives hg hchecks
      -- With its value the field has the same handle.
      have hsame := Field.failures_congr hooks.search v.directives value hhandle
        (⟨rfl, fun _ => rfl⟩ : run.scene.Alike run.scene) f.directives
      rw [hsame] at h
      exact hlast (lookup_withMessages _ _ _ _) hdeclared h
    · next hvalue =>
      rw [if_neg hvalue, withMessages_nil hg]
      exact hlast hg hdeclared h

/-! ## Taking the value -/

/-- What becomes of the parameter of a field and of the filtered values once the field has been
supplied. -/
theorem withSupplied_completed (plan : Plan) {run : Run} {name v : Value}
    (h : run.params.lookup name = some v) (f : Field) (filtered : Option Value) :
    (run.withSupplied plan name (f.completed v filtered)).params =
        run.params.insert name (f.orDefault (filtered.getD v)) ∧
      (run.withSupplied plan name (f.completed v filtered)).filtered =
        match filtered with
        | some w => run.filtered.insert ((plan.sources.lookup name).getD name) w
        | none => run.filtered := by
  obtain ⟨hvalue, hfiltered, hkept⟩ := f.completed_value v filtered
  generalize f.completed v filtered = s at *
  unfold withSupplied
  rw [hfiltered, ← hvalue]
  cases filtered with
  | none =>
    dsimp only
    split
    · exact ⟨rfl, rfl⟩
    · next hdefault =>
      -- Without filters and default the parameter is the one that is there.
      have hsame : run.params.insert name s.value = run.params := by
        rw [hkept (by simpa using hdefault)]
        exact Entries.insert_of_lookup h
      rw [hsame]
      split <;> exact ⟨rfl, rfl⟩
  | some w =>
    dsimp only
    split
    · exact ⟨Entries.insert_insert _ _ _ _, rfl⟩
    · next hdefault =>
      have hsame : s.value = w := hkept (by simpa using hdefault)
      rw [hsame]
      split <;> exact ⟨rfl, rfl⟩

/-- Taking the value of a field into the run sets its parameter, if it has one, to the value that is
checked. If the filters run, their result is kept for the key that supplied the parameter. -/
theorem takeValue_eq {run run' : Run} {name x : Value} {f : Field}
    (h : Returns (takeValue hooks v plan name f) run x run') :
    f.checkedValue hooks.filter v.filters (run.params.lookup name) = .ok x ∧
      run'.fields = run.fields ∧
      run'.params = (if run.params.contains name then run.params.insert name x else run.params) ∧
      ∃ filtered : Option Value,
        (run'.filtered = match filtered with
          | some w => run.filtered.insert ((plan.sources.lookup name).getD name) w
          | none => run.filtered) ∧
        (run.params.lookup name = none → filtered = none) ∧
        ∀ p, run.params.lookup name = some p →
          runFilters hooks.filter v.filters f.filters p = .ok (filtered.getD p) := by
  rw [takeValue, Returns.get_bind_iff] at h
  unfold Entries.contains
  cases hp : run.params.lookup name with
  | none =>
    rw [hp] at h
    obtain ⟨rfl, rfl⟩ := Returns.pure_iff.1 h
    exact ⟨rfl, rfl, rfl, none, rfl, fun _ => rfl, fun p hp' => by cases hp'⟩
  | some p =>
    rw [hp] at h
    simp only [supply, Returns.bind_iff, Returns.liftM_iff, Returns.modify_iff,
      Returns.pure_iff] at h
    obtain ⟨s, _, ⟨hs, rfl⟩, _, _, rfl, rfl, rfl⟩ := h
    -- The field has a parameter, which the filters turn into what is supplied.
    obtain ⟨filtered, hfiltered, rfl⟩ := map_eq_ok_iff.1 hs
    have hrun := Field.filtered?_ok hfiltered
    have hvalue := (f.completed_value p filtered).1
    obtain ⟨hparams, hkept⟩ := withSupplied_completed plan hp f filtered
    refine ⟨?_, (withSupplied_eq plan run name _).1, ?_, filtered, hkept, (by simp), ?_⟩
    · show (runFilters hooks.filter v.filters f.filters p).map f.orDefault = _
      rw [hrun, hvalue]
      rfl
    · rw [hparams, hvalue]
      rfl
    · intro p' hp'
      obtain rfl := Option.some.inj hp'
      exact hrun

/-- The check of a field takes its value into the run and records the messages that are expected. -/
theorem checkField_eq (hbuiltin : v.directives.OnlyBuiltin) {run run' : Run} {name : Value}
    {u : Unit} {f : Field} (hf : run.fields.lookup name = some f)
    (hcallback : f.validation.isCallback = false)
    (h : Returns (checkField hooks v plan name f) run u run') :
    ∃ x taken, Returns (takeValue hooks v plan name f) run x taken ∧
      run'.params = taken.params ∧ run'.filtered = taken.filtered ∧
      run'.fields = run.fields.insert name (({ f with value := x } : Field).recorded
        (f.expected hooks.search v.directives x ⟨taken.params, run.fields⟩)) := by
  rw [checkField] at h
  simp only [Returns.bind_iff, setField, Returns.modify_iff] at h
  obtain ⟨x, taken, htaken, _, w, rfl, hcheck⟩ := h
  obtain ⟨-, hfields, -⟩ := takeValue_eq htaken
  have hset : Entries.lookup (taken.fields.insert name { f with value := x }) name =
      some { f with value := x } := by
    rw [Entries.lookup_insert, if_pos rfl]
  have hresult := checkValue_eq (f := f) (g := { f with value := x }) hbuiltin hset rfl rfl
    hcallback hcheck
  refine ⟨x, taken, htaken, ?_, ?_, ?_⟩
  · rw [hresult]
    rfl
  · rw [hresult]
    rfl
  · -- The field itself is no different to the checks once its value is set.
    have halike : Scene.Alike ⟨taken.params, taken.fields.insert name { f with value := x }⟩
        ⟨taken.params, run.fields⟩ := by
      refine ⟨rfl, fun k => ?_⟩
      dsimp only
      rw [hfields, Entries.lookup_insert]
      split
      · next hk =>
        rw [← Entries.lookup_congr hk, hf]
        rfl
      · rfl
    rw [hresult]
    show Entries.insert (Entries.insert taken.fields name _) name (Field.recorded _
      (f.expected hooks.search v.directives x ⟨taken.params, taken.fields.insert name { f with value := x }⟩)) = _
    rw [Entries.insert_insert, Field.expected_congr hooks.search v.directives x rfl rfl halike, hfields]

end Run

end ParamCheck
