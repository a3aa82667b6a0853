import ParamCheck.Proofs.Check
import ParamCheck.Proofs.Report
import ParamCheck.Validator.Run

/-!
# What a run keeps

Whether a run fails or not, and whatever callbacks do, it changes fields and the report in a few
ways only, and a property that outlasts each of these outlasts the run (`Run.Invariant`,
`Run.Invariant.checkFields`). Once a field has its value, all that happens in its turn is that
messages are recorded and parameters change (`Run.Outlasting`). So a run changes the state of
fields and nothing else of them: they are afterwards those with the same declarations in the same
order (`Validator.runTargets_keeps`). The parameters stand under the same keys as before
(`Validator.keys_writeBack`).
-/

namespace ParamCheck

namespace Run

/-- The fields of the run have the given declarations. -/
def Keeps (declared : Entries Field) (run : Run) : Prop :=
  run.fields.mapValues Field.reset = declared

variable {declared : Entries Field} {run : Run}

/-- Fields that have been reset have their declarations. -/
theorem keeps_reset (fields : Entries Field) {run : Run}
    (h : run.fields = fields.mapValues Field.reset) :
    run.Keeps (fields.mapValues Field.reset) := by
  unfold Keeps
  rw [h, Entries.mapValues_mapValues]
  rfl

/-- A field with the same declaration can take the place of a field. -/
theorem Keeps.insert (h : run.Keeps declared) {name : Value} {f : Field}
    (hf : declared.lookup name = some f.reset) :
    (run.fields.insert name f).mapValues Field.reset = declared := by
  rw [Entries.mapValues_insert, h, Entries.insert_of_lookup hf]

/-- A field of the run has its declaration. -/
theorem Keeps.lookup (h : run.Keeps declared) {name : Value} {f : Field}
    (hf : run.fields.lookup name = some f) : declared.lookup name = some f.reset := by
  rw [← h, Entries.lookup_mapValues, hf]
  rfl

/-- A name that is not declared is no field of the run. -/
theorem Keeps.lookup_eq_none (h : run.Keeps declared) {name : Value}
    (hname : declared.lookup name = none) : run.fields.lookup name = none := by
  rw [← Option.map_eq_none_iff (f := Field.reset), ← Entries.lookup_mapValues, h]
  exact hname

/-- The fields of the run stand under the names of the declarations. -/
theorem Keeps.keys (h : run.Keeps declared) : run.fields.keys = declared.keys := by
  rw [← h, Entries.keys_mapValues]

/-- The handles of the fields are those of their declarations. -/
theorem Keeps.alike (h : run.Keeps declared) (params : Entries Value) :
    Scene.Alike ⟨params, run.fields⟩ ⟨params, declared⟩ := by
  refine ⟨rfl, fun k => ?_⟩
  dsimp only
  rw [← h, Entries.lookup_mapValues, Option.map_map]
  rfl

/-- A field of the run keeps its declaration when its turn comes, if it has the name that it is
declared under. -/
theorem Keeps.lookup_turn (hnames : ∀ e ∈ declared, e.2.name = e.1) (h : run.Keeps declared)
    {name : String} {f : Field} (hf : run.fields.lookup (.str name) = some f) :
    f.name = .str name ∧ ∀ toggle, declared.lookup (.str name) =
      some ({ f with name := .str name, toggle } : Field).reset := by
  have hdeclared := h.lookup hf
  obtain ⟨l, hl, hkey⟩ := Entries.exists_mem_of_lookup hdeclared
  -- The field is named as its entry, and so as the text that has found it.
  have hname : f.name = .str name := (hnames _ hl).trans (Value.eq_str_of_key? hkey)
  refine ⟨hname, fun toggle => ?_⟩
  rw [hdeclared, ← hname]
  rfl

/-! ## Taking the value -/

/-- Supplying a field leaves the state of all fields and the report. -/
theorem withSupplied_eq (plan : Plan) (run : Run) (name : Value) (s : Supplied) :
    (run.withSupplied plan name s).fields = run.fields ∧
      (run.withSupplied plan name s).messages = run.messages := by
  unfold withSupplied
  cases s.filtered with
  | none =>
    dsimp only
    split
    · exact ⟨rfl, rfl⟩
    · split <;> exact ⟨rfl, rfl⟩
  | some v =>
    dsimp only
    split
    · exact ⟨rfl, rfl⟩
    · split <;> exact ⟨rfl, rfl⟩

/-- What is supplied has nothing to do with the state of fields and the report. -/
theorem withSupplied_update (plan : Plan) (run : Run) (fields : Entries Field) (messages : List Value)
    (name : Value) (s : Supplied) :
    ({ run with fields, messages } : Run).withSupplied plan name s =
      { run.withSupplied plan name s with fields, messages } := by
  unfold withSupplied
  cases s.filtered with
  | none =>
    dsimp only
    split
    · rfl
    · split <;> rfl
  | some v =>
    dsimp only
    split
    · rfl
    · split <;> rfl

/-- Taking the value of a field into the run leaves the fields and the report. -/
theorem takeValue_leaves {P : Run → Prop}
    (hP : ∀ {run run'}, P run → run'.fields = run.fields → run'.messages = run.messages → P run')
    {run : Run} (h : P run) (hooks : Hooks) (v : Validator) (plan : Plan) (name : Value)
    (f : Field) : Leaves (takeValue hooks v plan name f) run P := by
  unfold takeValue
  apply Leaves.get_bind
  split
  · unfold supply
    refine Leaves.bind (Leaves.liftM_iff.2 h) fun s u _ hu => ?_
    refine Leaves.bind ?_ fun _ w _ hw => hw
    obtain ⟨hfields, hmessages⟩ := withSupplied_eq plan u name s
    exact hP hu hfields hmessages
  · exact h

/-! ## Checks -/

/-- A property that outlasts what checks and callbacks do: a message that is recorded against a field,
and other parameters. -/
structure Outlasting (P : Run → Prop) : Prop where
  recorded : ∀ {run name f}, P run → run.fields.lookup name = some f → ∀ m,
    P { run with
      fields := run.fields.insert name { f with errors := Report.add f.errors m }
      messages := Report.add run.messages m }
  params : ∀ {run}, P run → ∀ params, P { run with params }

namespace Outlasting

variable {v : Validator} {P : Run → Prop} {hooks : Hooks} {plan : Plan} (hP : Outlasting P)

include hP

/-- A message is recorded. -/
theorem record (h : P run) (name message : Value) : Leaves (Run.record name message) run P := by
  unfold Run.record
  apply Leaves.get_bind
  split
  · exact h
  · next f hf =>
    refine Leaves.bind (Leaves.liftM_iff.2 h) fun r u hr _ => ?_
    obtain ⟨hrecord, rfl⟩ := Returns.liftM_iff.1 hr
    obtain ⟨-, rfl⟩ := Report.record_ok_iff.1 hrecord
    exact hP.recorded h hf _

/-- A message about a field is recorded. -/
theorem complain (h : P run) (name : Value) (f : Field) (words : String) :
    Leaves (Run.complain name f words) run P :=
  Leaves.bind (Leaves.liftM_iff.2 h) fun _ _ _ hu => hP.record hu name _

/-- Effects are carried out. -/
theorem perform (name : Value) (effects : List Effect) :
    ∀ {run}, P run → Leaves (Run.perform name effects) run P := by
  induction effects with
  | nil => exact fun h => h
  | cons e rest ih =>
    intro run h
    cases e with
    | record message => exact Leaves.bind (hP.record h name message) fun _ u _ hu => ih hu
    | recordFor field message => exact Leaves.bind (hP.record h field message) fun _ u _ hu => ih hu
    | setParam key v =>
      exact Leaves.bind (Leaves.modify_iff.2 (hP.params h _)) fun _ u _ hu => ih hu
    | dropParam key =>
      exact Leaves.bind (Leaves.modify_iff.2 (hP.params h _)) fun _ u _ hu => ih hu

/-- A script is carried out. -/
theorem play (h : P run) (name : Value) (s : Script) : Leaves (Run.play name s) run P :=
  Leaves.bind (hP.perform name s.effects h) fun _ _ _ hu => Leaves.liftM_iff.2 hu

/-- Directives are checked. -/
theorem checkDirectives (name value : Value) (ds : List (Value × Value)) :
    ∀ {run}, P run → Leaves (Run.checkDirectives hooks v name value ds) run P := by
  induction ds with
  | nil => exact fun h => h
  | cons d rest ih =>
    intro run h
    unfold Run.checkDirectives
    split
    · exact ih h
    · apply Leaves.get_bind
      exact Leaves.bind (hP.play h name _) fun _ u _ hu => ih hu

/-- A validation callback is asked. -/
theorem checkValidation (h : P run) (name : Value) :
    Leaves (Run.checkValidation hooks name) run P := by
  unfold Run.checkValidation
  apply Leaves.get_bind
  dsimp only
  split
  · exact h
  · refine Leaves.bind (hP.play h name _) fun answer u _ hu => ?_
    apply Leaves.get_bind
    split
    · exact hP.complain hu name _ _
    · exact hu
  · exact h

/-- A value is checked. -/
theorem checkValue (h : P run) (name value : Value) (f : Field) :
    Leaves (Run.checkValue hooks v plan name value f) run P := by
  unfold Run.checkValue
  split
  · exact hP.complain h name _ _
  -- The validation comes last, whether or not the directives are checked.
  · have hlast : ∀ {u : Run}, P u →
        Leaves (if plan.hasParams then Run.checkValidation hooks name else pure ()) u P := by
      intro u hu
      split
      · exact hP.checkValidation hu name
      · exact hu
    dsimp only
    split
    · exact Leaves.bind (hP.checkDirectives name value f.directives h) fun _ u _ hu => hlast hu
    · exact hlast h

end Outlasting

/-! ## Invariants -/

/-- A property that the turns of the given names keep. The fields have the given declarations, and
the property is about the fields and the report only. It outlasts a message that is recorded, a
change of a field's state other than its messages, and the report of a name that is no field. -/
structure Invariant (v : Validator) (declared : Entries Field) (names : List String)
    (P : Run → Prop) : Prop where
  keeps : ∀ {run}, P run → run.Keeps declared
  congr : ∀ {run run'}, P run → run'.fields = run.fields → run'.messages = run.messages → P run'
  recorded : ∀ {run name f}, P run → run.fields.lookup name = some f → ∀ m,
    P { run with
      fields := run.fields.insert name { f with errors := Report.add f.errors m }
      messages := Report.add run.messages m }
  updated : ∀ {run name f g}, P run → run.fields.lookup name = some f → g.reset = f.reset →
    g.errors = f.errors → P { run with fields := run.fields.insert name g }
  passed : ∀ {run name}, P run → name ∈ names → run.fields.lookup (.str name) = none →
    v.options.policy.ignoreUnknown = true → v.options.policy.reportUnknown = true →
      P { run with
        messages := Report.add run.messages (.str (Fault.unknownField (.str name)).message) }

/-- The declarations outlast everything. -/
theorem invariant_keeps (v : Validator) (declared : Entries Field) (names : List String) :
    Invariant v declared names (Keeps declared) where
  keeps h := h
  congr h hfields _ := by
    unfold Keeps
    rw [hfields]
    exact h
  recorded h hf m := by
    have hdeclared := h.lookup hf
    exact h.insert hdeclared
  updated h hf hreset _ := by
    have hdeclared := h.lookup hf
    rw [← hreset] at hdeclared
    exact h.insert hdeclared
  passed h _ _ _ _ := h

namespace Invariant

variable {v : Validator} {names : List String} {P : Run → Prop} {hooks : Hooks} {plan : Plan}
  (hP : Invariant v declared names P)

include hP

/-- It outlasts what checks and callbacks do. -/
theorem outlasting : Outlasting P where
  recorded := hP.recorded
  params h _ := hP.congr h rfl rfl

/-- A field is checked. -/
theorem checkField (h : P run) {name : Value} {f : Field} (hf : run.fields.lookup name = some f) :
    Leaves (Run.checkField hooks v plan name f) run P := by
  have htake : Leaves (takeValue hooks v plan name f) run fun u => u.fields = run.fields :=
    takeValue_leaves (fun hu hfields _ => hfields.trans hu) rfl hooks v plan name f
  refine Leaves.bind (takeValue_leaves hP.congr h hooks v plan name f) fun value u hu hPu => ?_
  -- The field is still there when its value is set.
  have hset : u.fields.lookup name = some f := by rw [hu.leaves_iff.1 htake, hf]
  refine Leaves.bind (hP.updated hPu hset rfl rfl) fun _ w _ hw => ?_
  exact hP.outlasting.checkValue hw name value f

/-- A name that is no field is passed over. -/
theorem unknown (h : P run) {name : String} (hname : name ∈ names)
    (hf : run.fields.lookup (.str name) = none) :
    Leaves (Run.unknown v (.unknownField (.str name))) run P := by
  unfold Run.unknown
  apply Leaves.get_bind
  refine Leaves.bind (Leaves.liftM_iff.2 h) fun journal u hu _ => ?_
  obtain ⟨htolerate, rfl⟩ := Returns.liftM_iff.1 hu
  rw [Policy.tolerate_unknownField] at htolerate
  split at htolerate
  · next hignore =>
    obtain rfl := Except.ok.inj htolerate
    by_cases hreport : v.options.policy.reportUnknown = true
    · refine hP.congr (hP.passed h hname hf hignore hreport) rfl ?_
      exact if_pos hreport
    · refine hP.congr h rfl ?_
      exact if_neg hreport
  · cases htolerate

/-- The turn of a name is taken, in declarations in which every field has the name that it is
declared under. -/
theorem checkName (hnames : ∀ e ∈ declared, e.2.name = e.1) (h : P run) {name : String}
    (hname : name ∈ names) : Leaves (Run.checkName hooks v plan name) run P := by
  unfold Run.checkName
  apply Leaves.get_bind
  split
  · next hf => exact hP.unknown h hname hf
  · next f hf =>
    obtain ⟨hself, -⟩ := (hP.keeps h).lookup_turn hnames hf
    dsimp only
    generalize htoggle : (plan.toggles.lookup (.str name)).getD .declared = toggle
    have hreset : ({ f with name := .str name, toggle } : Field).reset = f.reset := by
      rw [← hself]
      rfl
    refine Leaves.bind (hP.updated h hf hreset rfl) fun _ u hu hPu => ?_
    have hset : u.fields.lookup (.str name) = some { f with name := .str name, toggle } := by
      obtain rfl := Returns.modify_iff.1 hu
      rw [Entries.lookup_insert, if_pos rfl]
    exact hP.checkField hPu hset

/-- The turns of names are taken. -/
theorem checkFields (hnames : ∀ e ∈ declared, e.2.name = e.1) {turns : List String}
    (hturns : ∀ name ∈ turns, name ∈ names) :
    ∀ {run}, P run → Leaves (Run.checkFields hooks v plan turns) run P := by
  induction turns with
  | nil => exact fun h => h
  | cons name rest ih =>
    intro run h
    obtain ⟨hname, hrest⟩ := List.forall_mem_cons.1 hturns
    exact Leaves.bind (hP.checkName hnames h hname) fun _ u _ hu => ih hrest hu

end Invariant

variable (hooks : Hooks) (v : Validator) (plan : Plan)

/-- The turn of a name keeps the declarations, in which every field has the name that it is declared
under. -/
theorem checkName_keeps (hnames : ∀ e ∈ declared, e.2.name = e.1) (h : run.Keeps declared)
    (name : String) : Leaves (checkName hooks v plan name) run (Keeps declared) :=
  (invariant_keeps v declared [name]).checkName hnames h List.mem_cons_self

/-- The turns of names keep the declarations. -/
theorem checkFields_keeps (hnames : ∀ e ∈ declared, e.2.name = e.1) (names : List String)
    {run : Run} (h : run.Keeps declared) :
    Leaves (checkFields hooks v plan names) run (Keeps declared) :=
  (invariant_keeps v declared names).checkFields hnames (fun _ hname => hname) h

end Run

/-- Planning a run changes nothing but the parameters and the notes. -/
theorem Validator.plan_leaves {P : Run → Prop}
    (hP : ∀ {run : Run}, P run → ∀ params notes, P { run with params, notes }) {run : Run}
    (h : P run) (v : Validator) (targets : List Value) : Leaves (v.plan targets) run P := by
  unfold Validator.plan
  apply Leaves.get_bind
  refine Leaves.bind (Leaves.liftM_iff.2 h) fun request u _ hu => ?_
  refine Leaves.bind (Leaves.mapM (fun _ _ hs => Leaves.liftM_iff.2 hs) _ hu) fun parsed w _ hw => ?_
  refine Leaves.bind (Leaves.modify_iff.2 (hP hw _ _)) fun _ x _ hx => ?_
  refine Leaves.bind (Leaves.liftM_iff.2 hx) fun _ y _ hy => ?_
  exact Leaves.bind (Leaves.modify_iff.2 (hP hy y.params _)) fun _ z _ hz => hz

/-- A run on fields that have the names that they are declared under keeps the declarations,
whether it fails or not. -/
theorem Validator.runTargets_keeps {declared : Entries Field}
    (hnames : ∀ e ∈ declared, e.2.name = e.1) {run : Run} (h : run.Keeps declared) (hooks : Hooks)
    (v : Validator) (targets : List Value) :
    Leaves (runTargets hooks v targets) run (Run.Keeps declared) := by
  have hP := Run.invariant_keeps v declared []
  have hplan := plan_leaves (fun hu _ _ => hP.congr hu rfl rfl) h v targets
  refine Leaves.bind hplan fun plan u _ hu => ?_
  exact Run.checkFields_keeps hooks v plan hnames plan.selected hu

/-- The parameters after a run stand under the keys from before it. -/
theorem Validator.keys_writeBack (filtered : Entries Value) :
    ∀ params : Entries Value, (writeBack params filtered).keys = params.keys := by
  unfold writeBack
  induction filtered with
  | nil => exact fun _ => rfl
  | cons e rest ih =>
    intro params
    rw [List.foldl_cons, ih]
    dsimp only
    split
    · next h =>
      obtain ⟨w, hw⟩ := Option.isSome_iff_exists.1 h
      exact Entries.keys_insert_of_present hw e.2
    · rfl

end ParamCheck
