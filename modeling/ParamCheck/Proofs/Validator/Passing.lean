import ParamCheck.Proofs.Check.Reading
import ParamCheck.Proofs.Validator.Turns

/-!
# Turns that do not fail

A turn fails if the filters of its field do, if a check of the field cannot be carried out, or if
the name is no field and the policy refuses it (`Validator.Passes`). Turns in a row do not fail if each
of them passes, given the parameters that the turns before it leave
(`Validator.checkFields_settles_iff`).
-/

namespace ParamCheck

/-- The value of a field can be checked, given what its checks see of the run. If the field is required
and the value is blank, that can be said. Or else the checks can be carried out, if they come to that,
and there is nothing to validate. -/
def Field.Checkable (search : PatternSearch) (table : DirectiveTable) (hasParams : Bool) (f : Field)
    (x : Value) (scene : Scene) : Prop :=
  if f.isRequired && x.isBlank then f.handle.writable = true
  else
    ((f.isRequired || x.hasValue) = true → ∀ e ∈ f.directives, ∀ c,
      table.check? e.1 = some (.builtin c) → c.answers search e.2 x f scene = true) ∧
    (hasParams = true → f.validation = .null)

/-- Filters that can be run on a parameter leave something of it. -/
theorem Field.filtered?_of_runFilters {hook : FilterHook} {table : FilterTable} {f : Field}
    {p w : Value} (h : runFilters hook table f.filters p = .ok w) :
    ∃ filtered, f.filtered? hook table p = .ok filtered := by
  unfold Field.filtered?
  split
  · split
    · exact ⟨none, rfl⟩
    · rw [h]
      exact ⟨some w, rfl⟩
  · exact ⟨none, rfl⟩

namespace Run

variable {hooks : Hooks} {v : Validator} {plan : Plan} {run : Run} {name : Value} {f : Field}

/-- A text that is not empty can be recorded against a field. -/
theorem record_returns (hf : run.fields.lookup name = some f) {text : String} (htext : text ≠ "") :
    Returns (record name (.str text)) run () (run.withMessages name f [.str text]) := by
  rw [record, Returns.get_bind_iff]
  rw [hf]
  have hrecord : Report.record f run.messages (.str text) = .ok (f.recorded [.str text],
      Report.add run.messages (Report.effective f (.str text))) :=
    Report.record_ok_iff.2 ⟨⟨text, rfl, htext⟩, rfl⟩
  exact Returns.bind_iff.2 ⟨_, run, Returns.liftM_iff.2 ⟨hrecord, rfl⟩, Returns.set_iff.2 rfl⟩

/-- Texts that are not empty can be recorded against a field. -/
theorem perform_returns {messages : List Value}
    (h : ∀ m ∈ messages, ∃ text, m = .str text ∧ text ≠ "") :
    ∀ {run : Run} {f : Field}, run.fields.lookup name = some f →
      Returns (perform name (messages.map .record)) run () (run.withMessages name f messages) := by
  induction messages with
  | nil =>
    intro run f hf
    rw [withMessages_nil hf]
    exact Returns.pure_iff.2 ⟨rfl, rfl⟩
  | cons m rest ih =>
    intro run f hf
    obtain ⟨⟨text, rfl, htext⟩, hrest⟩ := List.forall_mem_cons.1 h
    refine Returns.bind_iff.2 ⟨(), _, record_returns hf htext, ?_⟩
    have hlast := ih hrest (lookup_withMessages run name f [.str text])
    rw [withMessages_withMessages] at hlast
    exact hlast

/-- What is wrong with a field can be recorded if the handle that it is said with can be written. -/
theorem complain_returns (hf : run.fields.lookup name = some f) {g : Field}
    (hg : g.handle.writable = true) {words : String} (hwords : words ≠ "") :
    Returns (complain name g words) run ()
      (run.withMessages name f [.str (g.handle.text ++ words)]) := by
  refine Returns.bind_iff.2 ⟨_, run, Returns.liftM_iff.2 ⟨Value.write_of_writable hg, rfl⟩,
    record_returns hf fun hempty => hwords ?_⟩
  exact (String.append_eq_empty_iff.1 hempty).2

/-- It can be said what is wrong with a field if its handle can be written. -/
theorem complain_settles_iff (hf : run.fields.lookup name = some f) (g : Field) {words : String}
    (hwords : words ≠ "") : Settles (complain name g words) run ↔ g.handle.writable = true := by
  constructor
  · intro h
    rw [complain, Settles.bind_iff] at h
    obtain ⟨handle, u, hhandle, -⟩ := h
    exact (Value.write_eq_ok_iff.1 (Returns.liftM_iff.1 hhandle).1).1
  · exact fun hwritable => ⟨(), _, complain_returns hf hwritable hwords⟩

/-- A built-in check can be played for a field if it can be carried out. -/
theorem play_settles_iff (hf : run.fields.lookup name = some f) (search : PatternSearch)
    (c : BuiltinCheck) (argument value : Value) (g : Field) (s : Scene) :
    Settles (play name (c.script search argument value g s)) run ↔
      c.answers search argument value g s = true := by
  have hperform := perform_returns (c.texts search argument value g s) hf
  rw [← c.records search argument value g s] at hperform
  rw [BuiltinCheck.answers, play, Settles.bind_iff]
  constructor
  · rintro ⟨_, u, -, hanswer⟩
    obtain ⟨a, ha⟩ := Settles.liftM_iff.1 hanswer
    rw [ha]
    rfl
  · intro hok
    refine ⟨(), _, hperform, Settles.liftM_iff.2 ?_⟩
    cases hanswer : (c.script search argument value g s).answer with
    | ok a => exact ⟨a, rfl⟩
    | error e =>
      rw [hanswer] at hok
      cases hok

/-- The checks of directives do not fail if all of them can be carried out. -/
theorem checkDirectives_settles_iff (hbuiltin : v.directives.OnlyBuiltin) {value : Value}
    (ds : List (Value × Value)) :
    ∀ {run : Run} {f : Field}, run.fields.lookup name = some f →
      (Settles (checkDirectives hooks v name value ds) run ↔
        ∀ e ∈ ds, ∀ c, v.directives.check? e.1 = some (.builtin c) →
          c.answers hooks.search e.2 value f run.scene = true) := by
  induction ds with
  | nil => exact fun _ => ⟨fun _ e he => absurd he List.not_mem_nil, fun _ => Settles.pure _ _⟩
  | cons d rest ih =>
    intro run f hf
    obtain ⟨key, argument⟩ := d
    rw [checkDirectives, List.forall_mem_cons]
    cases hcheck : v.directives.check? key with
    | none =>
      dsimp only
      rw [ih hf]
      exact ⟨fun h => ⟨fun c hc => absurd hc (Option.some_ne_none _).symm, h⟩, And.right⟩
    | some check =>
      obtain ⟨c, rfl⟩ := hbuiltin key check hcheck
      dsimp only
      rw [Settles.get_bind_iff, hf, Option.getD_some, Settles.bind_iff]
      have hplay := play_settles_iff hf hooks.search c argument value f run.scene
      -- The field is still there after the check, and the others see what they saw before.
      have hafter : ∀ {a : Value} {u : Run},
          Returns (play name (c.script hooks.search argument value f run.scene)) run a u →
            (Settles (checkDirectives hooks v name value rest) u ↔
              ∀ e ∈ rest, ∀ c, v.directives.check? e.1 = some (.builtin c) →
                c.answers hooks.search e.2 value f run.scene = true) := by
        intro a u hu
        rw [play, c.records] at hu
        obtain ⟨_, w, hperform, hanswer⟩ := Returns.bind_iff.1 hu
        obtain ⟨-, rfl⟩ := Returns.liftM_iff.1 hanswer
        obtain rfl := perform_eq _ hf hperform
        rw [ih (lookup_withMessages _ _ _ _)]
        have hhandle : ∀ messages, (f.recorded messages).handle = f.handle := fun _ => rfl
        refine forall₂_congr fun e _ => forall₂_congr fun c _ => ?_
        rw [c.answers_congr hooks.search e.2 value (hhandle _) (alike_withMessages hf _)]
      constructor
      · rintro ⟨a, u, hu, hrest⟩
        refine ⟨fun c' hc' => ?_, (hafter hu).1 hrest⟩
        obtain rfl := Check.builtin.inj (Option.some.inj hc')
        exact hplay.1 ⟨a, u, hu⟩
      · rintro ⟨hfirst, hrest⟩
        obtain ⟨a, u, hu⟩ := hplay.2 (hfirst c rfl)
        exact ⟨a, u, hu, (hafter hu).2 hrest⟩

/-- A field without a validation callback can be validated if there is nothing to validate. -/
theorem checkValidation_settles_iff (hf : run.fields.lookup name = some f)
    (hcallback : f.validation.isCallback = false) :
    Settles (checkValidation hooks name) run ↔ f.validation = .null := by
  rw [checkValidation, Settles.get_bind_iff, hf, Option.getD_some]
  dsimp only
  split
  · next hnull => exact ⟨fun _ => hnull, fun _ => Settles.pure _ _⟩
  · next hook hhook =>
    rw [hhook] at hcallback
    cases hcallback
  · next hother _ => exact ⟨fun h => absurd h (Settles.not_throw _ _), fun h => absurd h hother⟩

/-- The check of a value does not fail if it can be carried out. -/
theorem checkValue_settles_iff (hbuiltin : v.directives.OnlyBuiltin) {value : Value} {g : Field}
    (hg : run.fields.lookup name = some g) (hdeclared : g.directives = f.directives)
    (hhandle : g.handle = f.handle) (hcallback : f.validation.isCallback = false) :
    Settles (checkValue hooks v plan name value f) run ↔
      f.Checkable hooks.search v.directives plan.hasParams value run.scene := by
  have hvalidation : ∀ {h : Field}, h.directives = f.directives → h.validation = f.validation := by
    intro h hdirectives
    unfold Field.validation Field.directive
    rw [hdirectives]
  -- Nothing comes after the checks of the directives but the validation.
  have hlast : ∀ {u : Run} {h : Field}, u.fields.lookup name = some h →
      h.directives = f.directives →
        (Settles (if plan.hasParams then checkValidation hooks name else pure ()) u ↔
          (plan.hasParams = true → f.validation = .null)) := by
    intro u h hh hdirectives
    split
    · next hparams =>
      rw [checkValidation_settles_iff hh (hvalidation hdirectives ▸ hcallback),
        hvalidation hdirectives]
      exact ⟨fun hnull _ => hnull, fun hnull => hnull hparams⟩
    · next hparams => exact ⟨fun _ hp => absurd hp hparams, fun _ => Settles.pure _ _⟩
  unfold checkValue Field.Checkable
  split
  · exact complain_settles_iff hg f (by simp)
  · dsimp only
    split
    · next hvalue =>
      have hchecks : Settles (checkDirectives hooks v name value f.directives) run ↔
          ∀ e ∈ f.directives, ∀ c, v.directives.check? e.1 = some (.builtin c) →
            c.answers hooks.search e.2 value f run.scene = true := by
        rw [checkDirectives_settles_iff hbuiltin f.directives hg]
        refine forall₂_congr fun e _ => forall₂_congr fun c _ => ?_
        rw [c.answers_congr hooks.search e.2 value hhandle
          (⟨rfl, fun _ => rfl⟩ : run.scene.Alike run.scene)]
      -- The field is still there after the checks, with its directives.
      have hafter : ∀ {a : Unit} {u : Run},
          Returns (checkDirectives hooks v name value f.directives) run a u →
            u.fields.lookup name =
              some (g.recorded (g.failures hooks.search v.directives value run.scene f.directives)) := by
        intro a u hu
        rw [checkDirectives_eq hbuiltin f.directives hg hu]
        exact lookup_withMessages _ _ _ _
      rw [Settles.bind_iff, ← hchecks]
      constructor
      · rintro ⟨_, u, hu, hrest⟩
        exact ⟨fun _ => ⟨(), u, hu⟩, (hlast (hafter hu) hdeclared).1 hrest⟩
      · rintro ⟨hfirst, hrest⟩
        obtain ⟨_, u, hu⟩ := hfirst hvalue
        exact ⟨(), u, hu, (hlast (hafter hu) hdeclared).2 hrest⟩
    · next hvalue =>
      rw [hlast hg hdeclared]
      exact ⟨fun h => ⟨fun hv => absurd hv hvalue, h⟩, And.right⟩

/-- A value can be taken into the run if there is one to be checked. -/
theorem takeValue_settles_iff :
    Settles (takeValue hooks v plan name f) run ↔
      ∃ x, f.checkedValue hooks.filter v.filters (run.params.lookup name) = .ok x := by
  constructor
  · rintro ⟨x, u, hu⟩
    exact ⟨x, (takeValue_eq hu).1⟩
  · rintro ⟨x, hx⟩
    rw [takeValue, Settles.get_bind_iff]
    cases hp : run.params.lookup name with
    | none => exact Settles.pure _ _
    | some p =>
      rw [hp] at hx
      obtain ⟨w, hw, -⟩ := map_eq_ok_iff.1 hx
      obtain ⟨filtered, hfiltered⟩ := Field.filtered?_of_runFilters hw
      have hs : f.supplied hooks.filter v.filters p = .ok (f.completed p filtered) := by
        unfold Field.supplied
        rw [hfiltered]
        rfl
      refine Settles.bind_iff.2 ⟨_, run, Returns.liftM_iff.2 ⟨hs, rfl⟩, ?_⟩
      exact Settles.bind_iff.2 ⟨(), _, Returns.modify_iff.2 rfl, Settles.pure _ _⟩

end Run

namespace Field

/-- Which value is checked is a matter of the directives. -/
theorem checkedValue_congr {f g : Field} (h : f.directives = g.directives) (hook : FilterHook)
    (table : FilterTable) (p : Option Value) :
    f.checkedValue hook table p = g.checkedValue hook table p := by
  unfold checkedValue orDefault Field.default filters directive
  rw [h]

/-- Whether a value can be checked depends on the declaration of the field, its toggle, the parameters
and the handles of all fields. -/
theorem checkable_congr {f g : Field} (h : f.reset = g.reset) (htoggle : f.toggle = g.toggle)
    (search : PatternSearch) (table : DirectiveTable) (hasParams : Bool) (x : Value) {s s' : Scene}
    (hs : s.Alike s') :
    f.Checkable search table hasParams x s ↔ g.Checkable search table hasParams x s' := by
  have hd : f.reset.directives = g.reset.directives := congrArg directives h
  change f.directives = g.directives at hd
  have hhandle := handle_congr h
  have hrequired : f.isRequired = g.isRequired := by
    unfold isRequired required directive
    rw [htoggle, hd]
  have hvalidation : f.validation = g.validation := by
    unfold validation directive
    rw [hd]
  have hanswers : ∀ (c : BuiltinCheck) (argument : Value),
      c.answers search argument x f s = c.answers search argument x g s' :=
    fun c argument => c.answers_congr search argument x hhandle hs
  unfold Checkable
  simp only [hd, hhandle, hrequired, hvalidation, hanswers]

end Field

namespace Run

variable {hooks : Hooks} {v : Validator} {plan : Plan} {run : Run} {name : Value} {f : Field}

/-- The check of a field does not fail if it has a value that can be checked once the value has been
taken into the run. -/
theorem checkField_settles_iff (hbuiltin : v.directives.OnlyBuiltin)
    (hf : run.fields.lookup name = some f) (hcallback : f.validation.isCallback = false) :
    Settles (checkField hooks v plan name f) run ↔
      ∃ x, f.checkedValue hooks.filter v.filters (run.params.lookup name) = .ok x ∧
        f.Checkable hooks.search v.directives plan.hasParams x
          ⟨if run.params.contains name then run.params.insert name x else run.params, run.fields⟩ := by
  -- The field is checked as it is once its value is set.
  have hcheck : ∀ {u : Run} {value : Value}, u.fields = run.fields →
      (Settles (checkValue hooks v plan name value f)
          { u with fields := u.fields.insert name { f with value } } ↔
        f.Checkable hooks.search v.directives plan.hasParams value ⟨u.params, run.fields⟩) := by
    intro u value hu
    have hset : Entries.lookup (u.fields.insert name { f with value }) name =
        some { f with value } := by
      rw [Entries.lookup_insert, if_pos rfl]
    have hchecked : Settles (checkValue hooks v plan name value f)
        { u with fields := u.fields.insert name { f with value } } ↔
          f.Checkable hooks.search v.directives plan.hasParams value
            ⟨u.params, u.fields.insert name { f with value }⟩ :=
      checkValue_settles_iff (g := { f with value }) hbuiltin hset rfl rfl hcallback
    rw [hchecked]
    refine Field.checkable_congr rfl rfl _ _ _ value ⟨rfl, fun k => ?_⟩
    show Option.map Field.handle (Entries.lookup (u.fields.insert name { f with value }) k) =
      Option.map Field.handle (Entries.lookup run.fields k)
    rw [hu, Entries.lookup_insert]
    split
    · next hk =>
      rw [← Entries.lookup_congr hk, hf]
      rfl
    · rfl
  rw [checkField, Settles.bind_iff]
  constructor
  · rintro ⟨x, u, hu, hrest⟩
    obtain ⟨_, w, hw, hlast⟩ := Settles.bind_iff.1 hrest
    obtain rfl := Returns.modify_iff.1 hw
    obtain ⟨hx, hfields, hparams, -⟩ := takeValue_eq hu
    exact ⟨x, hx, hparams ▸ (hcheck hfields).1 hlast⟩
  · rintro ⟨x, hx, hcheckable⟩
    obtain ⟨y, u, hu⟩ := takeValue_settles_iff.2 ⟨x, hx⟩
    obtain ⟨hy, hfields, hparams, -⟩ := takeValue_eq hu
    obtain rfl := Except.ok.inj (hy.symm.trans hx)
    refine ⟨y, u, hu, Settles.bind_iff.2 ⟨(), _, Returns.modify_iff.2 rfl, ?_⟩⟩
    exact (hcheck hfields).2 (hparams ▸ hcheckable)

end Run

namespace Validator

variable {hooks : Hooks} {v : Validator} {plan : Plan} {run : Run}

/-- The turn of a name after those of others does not fail, given the parameters before all of them: its
field has a value that can be checked once these turns have been taken, or the policy lets it pass if it
is no field. -/
def Passes (hooks : Hooks) (v : Validator) (plan : Plan) (params : Entries Value)
    (before : List String) (name : String) : Prop :=
  match v.fields.lookup (.str name) with
  | none => v.options.policy.ignoreUnknown = true
  | some f =>
    ∃ x, f.checkedValue hooks.filter v.filters (params.lookup (.str name)) = .ok x ∧
      ({ f with toggle := (plan.toggles.lookup (.str name)).getD .declared } : Field).Checkable
        hooks.search v.directives plan.hasParams x
        ⟨checkedParams hooks v (before ++ [name]) params, v.fields⟩

/-- The turn of a name that is no field does not fail if the policy lets it pass. -/
theorem unknown_settles_iff (name : String) :
    Settles (Run.unknown v (.unknownField (.str name))) run ↔
      v.options.policy.ignoreUnknown = true := by
  rw [Run.unknown, Settles.get_bind_iff, Settles.bind_iff, Policy.tolerate_unknownField]
  split
  · next hignore =>
    exact ⟨fun _ => hignore, fun _ => ⟨_, run, Returns.liftM_iff.2 ⟨rfl, rfl⟩, (), _, rfl⟩⟩
  · next hignore =>
    refine ⟨?_, fun h => absurd h hignore⟩
    rintro ⟨_, _, h, -⟩
    cases (Returns.liftM_iff.1 h).1

/-- The turn of a name does not fail if it passes. -/
theorem checkName_settles_iff (hv : v.Plain) (hkeeps : run.Keeps v.fields)
    (hparams : run.params.Distinct) (name : String) :
    Settles (Run.checkName hooks v plan name) run ↔ Passes hooks v plan run.params [] name := by
  have hlookup : v.fields.lookup (.str name) =
      (run.fields.lookup (.str name)).map Field.reset := by
    rw [← hkeeps, Entries.lookup_mapValues]
  unfold Passes
  rw [Run.checkName, Settles.get_bind_iff, hlookup]
  cases hf : run.fields.lookup (.str name) with
  | none => exact unknown_settles_iff _
  | some f =>
    obtain ⟨-, hself⟩ := hkeeps.lookup_turn hv.names hf
    dsimp only [Option.map_some]
    generalize (plan.toggles.lookup (.str name)).getD .declared = toggle
    have hdeclared : v.fields.lookup (.str name) = some f.reset := by rw [hlookup, hf]; rfl
    have hvalidation :
        ({ f with name := .str name, toggle } : Field).validation.isCallback = false := by
      obtain ⟨l, hl, -⟩ := Entries.exists_mem_of_lookup (hself toggle)
      exact hv.validation _ hl
    have hset : Entries.lookup (run.fields.insert (.str name) { f with name := .str name, toggle })
        (.str name) = some { f with name := .str name, toggle } := by
      rw [Entries.lookup_insert, if_pos rfl]
    have hcheck : Settles
        (Run.checkField hooks v plan (.str name) { f with name := .str name, toggle })
          { run with fields := run.fields.insert (.str name) { f with name := .str name, toggle } } ↔
        ∃ x, f.reset.checkedValue hooks.filter v.filters (run.params.lookup (.str name)) = .ok x ∧
          ({ f.reset with toggle } : Field).Checkable hooks.search v.directives plan.hasParams x
            ⟨checkedParams hooks v ([] ++ [name]) run.params, v.fields⟩ := by
      rw [Run.checkField_settles_iff hv.checks hset hvalidation]
      refine exists_congr fun x => and_congr_right fun hx => ?_
      -- The turn begins with the name of the field, which is what it was.
      have hsame : ({ f with name := .str name, toggle } : Field).reset =
          ({ f.reset with toggle } : Field).reset := Option.some.inj ((hself toggle).symm.trans hdeclared)
      have hx' : f.reset.checkedValue hooks.filter v.filters (run.params.lookup (.str name)) = .ok x := hx
      rw [List.nil_append, ← checkedParams_of_field hdeclared hparams hx']
      have hkeeps' : Run.Keeps v.fields { run with
          fields := run.fields.insert (.str name) { f with name := .str name, toggle } } :=
        hkeeps.insert (hself toggle)
      exact Field.checkable_congr hsame rfl _ _ _ x (hkeeps'.alike _)
    rw [← hcheck, Settles.bind_iff]
    constructor
    · rintro ⟨_, u, hu, hrest⟩
      obtain rfl := Returns.modify_iff.1 hu
      exact hrest
    · exact fun h => ⟨(), _, Returns.modify_iff.2 rfl, h⟩

/-- A turn passes after others once more have been taken if it passes after all of them. -/
theorem passes_append_iff {done before : List String} {name : String} (h : ∀ n ∈ done, n ∉ before ++ [name])
    (params : Entries Value) :
    Passes hooks v plan (checkedParams hooks v done params) before name ↔
      Passes hooks v plan params (done ++ before) name := by
  have hname : name ∉ done := fun hmem => h name hmem (List.mem_append_right _ List.mem_cons_self)
  unfold Passes
  rw [lookup_checkedParams_of_not_mem hname, checkedParams_checkedParams h, List.append_assoc]

/-- What holds wherever a list is split holds at its first entry and wherever the others are split. -/
theorem forall_split_cons_iff {α : Type} {P : List α → α → Prop} {a : α} {rest : List α} :
    (∀ before x after, a :: rest = before ++ x :: after → P before x) ↔
      P [] a ∧ ∀ before x after, rest = before ++ x :: after → P (a :: before) x := by
  constructor
  · intro h
    refine ⟨h [] a rest rfl, fun before x after hsplit => h (a :: before) x after ?_⟩
    rw [hsplit, List.cons_append]
  · rintro ⟨hfirst, hrest⟩ before x after hsplit
    cases before with
    | nil =>
      obtain ⟨rfl, -⟩ := List.cons.inj hsplit
      exact hfirst
    | cons b before =>
      obtain ⟨rfl, htail⟩ := List.cons.inj hsplit
      exact hrest before x after htail

/-- Turns in a row do not fail if each of them passes after those before it. -/
theorem checkFields_settles_iff (hv : v.Plain) {names : List String} (hnames : names.Nodup) :
    ∀ {run : Run}, run.Keeps v.fields → run.params.Distinct →
      (Settles (Run.checkFields hooks v plan names) run ↔
        ∀ before name after, names = before ++ name :: after →
          Passes hooks v plan run.params before name) := by
  induction names with
  | nil =>
    intro run _ _
    refine ⟨fun _ before name after hsplit => ?_, fun _ => Settles.pure _ _⟩
    cases (List.append_eq_nil_iff.1 hsplit.symm).2
  | cons first rest ih =>
    intro run hkeeps hparams
    obtain ⟨hfirst, hrest⟩ := List.nodup_cons.1 hnames
    -- After the first turn the parameters are those that it leaves.
    have hothers : ∀ {u : Unit} {w : Run}, Returns (Run.checkName hooks v plan first) run u w →
        (Settles (Run.checkFields hooks v plan rest) w ↔
          ∀ before name after, rest = before ++ name :: after →
            Passes hooks v plan run.params (first :: before) name) := by
      intro u w hw
      have hwparams := checkName_params hv hkeeps hparams hw
      have hdistinct : w.params.Distinct := by
        rw [hwparams]
        exact hparams.of_keys (keys_checkedParams _ _)
      rw [ih hrest (checkName_keeps hv hkeeps hw) hdistinct, hwparams]
      refine forall₃_congr fun before name after => forall_congr' fun hsplit =>
        passes_append_iff (fun n hn => ?_) _
      obtain rfl := List.mem_singleton.1 hn
      rw [hsplit] at hfirst
      simp only [List.mem_append, List.mem_cons, not_or] at hfirst ⊢
      exact ⟨hfirst.1, hfirst.2.1, List.not_mem_nil⟩
    rw [Run.checkFields, Settles.bind_iff, forall_split_cons_iff,
      ← checkName_settles_iff hv hkeeps hparams]
    constructor
    · rintro ⟨_, w, hw, hlast⟩
      exact ⟨⟨(), w, hw⟩, (hothers hw).1 hlast⟩
    · rintro ⟨⟨_, w, hw⟩, hlast⟩
      exact ⟨(), w, hw, (hothers hw).2 hlast⟩

end Validator

end ParamCheck
