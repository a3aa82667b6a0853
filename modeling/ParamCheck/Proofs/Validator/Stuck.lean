import ParamCheck.Proofs.Check.Readable
import ParamCheck.Proofs.Profile.Accepted

/-!
# Runs that get stuck

The arguments of directives are taken as they are declared, so that a check may not be able to read its
argument, or to write what it is to show, and there may be something in place of a validation callback. A turn is
stuck if it comes to that (`Validator.Stuck`), and a run gets stuck if a turn is that it comes to
(`Validator.GetsStuck`). It then fails for a conversion, and otherwise it returns, or fails for a name that is
not declared (`Validator.Ready.answer_cases`). If every integer that the fields list can be written, turns are
stuck for arguments that cannot be read and for no other reason (`Validator.Documented.stuck_iff`).
-/

namespace ParamCheck

namespace Field

variable {search : PatternSearch} {table : DirectiveTable} {hasParams : Bool} {f : Field} {x : Value}
  {scene : Scene}

/-- The field is required and blank and that cannot be said, or a check of it is made on a value and cannot be
carried out, or the run has parameters and there is something in place of a validation. -/
def Stuck (search : PatternSearch) (table : DirectiveTable) (hasParams : Bool) (f : Field) (x : Value)
    (scene : Scene) : Prop :=
  if f.isRequired && x.isBlank then f.handle.writable = false
  else
    ((f.isRequired || x.hasValue) = true ∧ ∃ e ∈ f.directives, ∃ c,
      table.check? e.1 = some (.builtin c) ∧ c.answers search e.2 x f scene = false) ∨
    (hasParams = true ∧ f.validation ≠ .null)

/-- A field is stuck with a value if its checks cannot be carried out on that. -/
theorem stuck_iff_not_checkable :
    f.Stuck search table hasParams x scene ↔ ¬f.Checkable search table hasParams x scene := by
  unfold Stuck Checkable
  split
  · rw [Bool.not_eq_true]
  · simp only [not_and_or, Classical.not_imp, not_forall, Bool.not_eq_true]

/-- A check of the field is made on a value and cannot read its argument, or the run has parameters and there is
something in place of a validation. -/
def Unreadable (table : DirectiveTable) (hasParams : Bool) (f : Field) (x : Value) : Prop :=
  (f.isRequired && x.isBlank) = false ∧
    (((f.isRequired || x.hasValue) = true ∧
        ∃ e ∈ f.directives, ∃ c, table.check? e.1 = some (.builtin c) ∧ ¬c.Readable e.2 x) ∨
      (hasParams = true ∧ f.validation ≠ .null))

/-- If all that is to be shown can be written, a field is stuck for arguments that cannot be read. -/
theorem stuck_iff_unreadable (hlegible : BuiltinCheck.Legible x f scene)
    (hshowable : ∀ e ∈ f.directives, ∀ c : BuiltinCheck, c.Showable e.2) :
    f.Stuck search table hasParams x scene ↔ f.Unreadable table hasParams x := by
  have hanswers : ∀ e ∈ f.directives, ∀ c : BuiltinCheck,
      (c.answers search e.2 x f scene = false ↔ ¬c.Readable e.2 x) := by
    intro e he c
    rw [← hlegible.answers_iff_readable c search (hshowable e he c), Bool.not_eq_true]
  unfold Stuck Unreadable
  split
  · next hblank =>
    refine iff_of_false ?_ fun h => ?_
    · rw [hlegible.handle]
      exact Bool.noConfusion
    · cases hblank.symm.trans h.1
  · next hblank =>
    rw [Bool.not_eq_true] at hblank
    refine Iff.trans (or_congr_left (and_congr_right fun _ => ?_)) (and_iff_right hblank).symm
    exact exists_congr fun e => and_congr_right fun he =>
      exists_congr fun c => and_congr_right fun _ => hanswers e he c

end Field

namespace Run

variable {hooks : Hooks} {v : Validator} {plan : Plan} {run w : Run} {name : Value} {f : Field} {e : Fault}

/-- A built-in check that is played for a field records its messages, and ends with its answer. -/
theorem run_play (hf : run.fields.lookup name = some f) (search : PatternSearch) (c : BuiltinCheck)
    (argument value : Value) (g : Field) (s : Scene) :
    (play name (c.script search argument value g s)).run run =
      ((c.script search argument value g s).answer,
        run.withMessages name f (c.script search argument value g s).messages) := by
  have hperform := perform_returns (c.texts search argument value g s) hf
  rw [← c.records search argument value g s] at hperform
  rw [play, hperform.run_bind]
  cases (c.script search argument value g s).answer with
  | ok a => rfl
  | error e => rfl

/-- Checks of directives fail with the fault of one of them. -/
theorem checkDirectives_error (hbuiltin : v.directives.OnlyBuiltin) {value : Value}
    (ds : List (Value × Value)) :
    ∀ {run : Run} {f : Field}, run.fields.lookup name = some f →
      (checkDirectives hooks v name value ds).run run = (.error e, w) → e.IsConversion := by
  induction ds with
  | nil =>
    intro run f _ h
    cases congrArg Prod.fst h
  | cons d rest ih =>
    intro run f hf h
    obtain ⟨key, argument⟩ := d
    rw [checkDirectives] at h
    cases hcheck : v.directives.check? key with
    | none =>
      rw [hcheck] at h
      exact ih hf h
    | some check =>
      obtain ⟨c, rfl⟩ := hbuiltin key check hcheck
      have hget : Returns (get : RunM Run) run run run := Returns.get_iff.2 ⟨rfl, rfl⟩
      have hplay := run_play hf hooks.search c argument value f run.scene
      rw [hcheck] at h
      dsimp only at h
      rw [hget.run_bind, hf, Option.getD_some] at h
      obtain h | ⟨a, u, hu, h⟩ := run_bind_eq_error_iff.1 h
      · have hanswer := congrArg Prod.fst (hplay.symm.trans h)
        exact c.converts_answer argument value f run.scene hooks.search e hanswer
      · -- The field is still there after a check.
        obtain rfl := congrArg Prod.snd (hplay.symm.trans hu)
        exact ih (lookup_withMessages _ _ _ _) h

/-- What is in place of a validation callback is of the wrong type. -/
theorem checkValidation_error (hf : run.fields.lookup name = some f)
    (hcallback : f.validation.isCallback = false)
    (h : (checkValidation hooks name).run run = (.error e, w)) : e.IsConversion := by
  have hget : Returns (get : RunM Run) run run run := Returns.get_iff.2 ⟨rfl, rfl⟩
  rw [checkValidation, hget.run_bind, hf, Option.getD_some] at h
  dsimp only at h
  split at h
  · cases congrArg Prod.fst h
  · next hook hhook =>
    rw [hhook] at hcallback
    cases hcallback
  · obtain rfl := Except.error.inj (congrArg Prod.fst h)
    exact .inr (.inl rfl)

/-- What is wrong with a field cannot be said if its handle cannot be written. -/
theorem complain_error (hf : run.fields.lookup name = some f) {g : Field} {words : String} (hwords : words ≠ "")
    (h : (complain name g words).run run = (.error e, w)) : e.IsConversion := by
  cases hhandle : g.handle.writable with
  | true =>
    cases congrArg Prod.fst ((complain_returns hf hhandle hwords).symm.trans h)
  | false =>
    obtain h | ⟨handle, u, hu, -⟩ := run_bind_eq_error_iff.1 h
    · rw [Value.write_of_not_writable hhandle] at h
      obtain rfl := Except.error.inj (congrArg Prod.fst h)
      exact .inl rfl
    · rw [Value.write_of_not_writable hhandle] at hu
      cases congrArg Prod.fst hu

/-- The check of a value fails as one of its parts does. -/
theorem checkValue_error (hbuiltin : v.directives.OnlyBuiltin) {value : Value} {g : Field}
    (hg : run.fields.lookup name = some g) (hdeclared : g.directives = f.directives)
    (hcallback : f.validation.isCallback = false)
    (h : (checkValue hooks v plan name value f).run run = (.error e, w)) : e.IsConversion := by
  have hlast : ∀ {u : Run} {k : Field}, u.fields.lookup name = some k → k.directives = f.directives →
      (if plan.hasParams then checkValidation hooks name else pure ()).run u = (.error e, w) →
        e.IsConversion := by
    intro u k hk hdirectives h
    split at h
    · refine checkValidation_error hk ?_ h
      unfold Field.validation Field.directive at hcallback ⊢
      rw [hdirectives]
      exact hcallback
    · cases congrArg Prod.fst h
  unfold checkValue at h
  split at h
  · exact complain_error hg (by simp) h
  · dsimp only at h
    split at h
    · obtain h | ⟨_, u, hu, h⟩ := run_bind_eq_error_iff.1 h
      · exact checkDirectives_error hbuiltin f.directives hg h
      · have hg' : u.fields.lookup name =
            some (g.recorded (g.failures hooks.search v.directives value run.scene f.directives)) := by
          rw [checkDirectives_eq hbuiltin f.directives hg hu]
          exact lookup_withMessages _ _ _ _
        exact hlast hg' hdeclared h
    · exact hlast hg hdeclared h

/-- The check of a field that has a value to be checked fails as that of the value does. -/
theorem checkField_error (hbuiltin : v.directives.OnlyBuiltin) (hcallback : f.validation.isCallback = false)
    {x : Value} (hx : f.checkedValue hooks.filter v.filters (run.params.lookup name) = .ok x)
    (h : (checkField hooks v plan name f).run run = (.error e, w)) : e.IsConversion := by
  obtain ⟨y, u, hu⟩ := takeValue_settles_iff.2 ⟨x, hx⟩
  rw [checkField, hu.run_bind] at h
  obtain h | ⟨_, u', hset, h⟩ := run_bind_eq_error_iff.1 h
  · cases congrArg Prod.fst h
  · obtain rfl := Returns.modify_iff.1 hset
    refine checkValue_error (g := { f with value := y }) hbuiltin ?_ rfl hcallback h
    rw [Entries.lookup_insert, if_pos rfl]

end Run

namespace Validator

variable {hooks : Hooks} {v : Validator} {plan : Plan}

/-- The turn of a name after those of others is stuck, given the parameters before all of them: its field is with
the value that is to be checked. -/
def Stuck (hooks : Hooks) (v : Validator) (plan : Plan) (params : Entries Value) (before : List String)
    (name : String) : Prop :=
  ∃ f x, v.fields.lookup (.str name) = some f ∧
    f.checkedValue hooks.filter v.filters (params.lookup (.str name)) = .ok x ∧
    ({ f with toggle := (plan.toggles.lookup (.str name)).getD .declared } : Field).Stuck
      hooks.search v.directives plan.hasParams x ⟨checkedParams hooks v (before ++ [name]) params, v.fields⟩

/-- The turn of a name comes to an argument that cannot be read, given the parameters of the run: its field does
with the value that is to be checked. -/
def Unreadable (hooks : Hooks) (v : Validator) (plan : Plan) (params : Entries Value) (name : String) : Prop :=
  ∃ f x, v.fields.lookup (.str name) = some f ∧
    f.checkedValue hooks.filter v.filters (params.lookup (.str name)) = .ok x ∧
    ({ f with toggle := (plan.toggles.lookup (.str name)).getD .declared } : Field).Unreadable
      v.directives plan.hasParams x

/-- The policy lets a name pass if it is not declared. -/
def Tolerates (v : Validator) (name : String) : Prop :=
  v.fields.lookup (.str name) = none → v.options.policy.ignoreUnknown = true

/-- A run gets stuck, given the parameters after its plan: the turn of a selected name is, and the run comes
to it as no name before it is refused. -/
def GetsStuck (hooks : Hooks) (v : Validator) (plan : Plan) (params : Entries Value) : Prop :=
  ∃ before name after, plan.selected = before ++ name :: after ∧ (∀ n ∈ before, v.Tolerates n) ∧
    v.Stuck hooks plan params before name

/-- Every integer that the fields list, or that a directive of theirs is read as, can be written. -/
structure Writable (v : Validator) : Prop where
  directives : ∀ e ∈ v.fields, ∀ d ∈ e.2.directives, d.2.writable = true
  counts : ∀ e ∈ v.fields, ∀ d ∈ e.2.directives,
    d.2.toInt.toOption.all (fun n => (Value.int n).writable) = true

instance (v : Validator) : Decidable v.Writable :=
  decidable_of_iff
    ((∀ e ∈ v.fields, ∀ d ∈ e.2.directives, d.2.writable = true) ∧
      ∀ e ∈ v.fields, ∀ d ∈ e.2.directives,
        d.2.toInt.toOption.all (fun n => (Value.int n).writable) = true)
    ⟨fun h => ⟨h.1, h.2⟩, fun h => ⟨h.directives, h.counts⟩⟩

/-- If every integer that the fields of a documented validator list can be written, and all parameters can, then
turns are stuck for arguments that cannot be read. -/
theorem Documented.stuck_iff (h : v.Documented) (hnamed : v.Named) (hwritable : v.Writable) (hooks : Hooks)
    (plan : Plan) {params : Entries Value} (hparams : ∀ e ∈ params, e.2.writable = true) (before : List String)
    (name : String) : v.Stuck hooks plan params before name ↔ v.Unreadable hooks plan params name := by
  have hshows : v.Shows := ⟨h.filters, h.names, h.listed, hwritable.directives⟩
  refine exists_congr fun f => exists_congr fun x => and_congr_right fun hf => and_congr_right fun hx => ?_
  obtain ⟨l, hl, -⟩ := Entries.exists_mem_of_lookup hf
  have hlegible : BuiltinCheck.Legible x f ⟨checkedParams hooks v (before ++ [name]) params, v.fields⟩ :=
    hshows.legible hnamed hparams hf hx
  refine Field.stuck_iff_unreadable
    ⟨hlegible.value, hlegible.handle, hlegible.params, hlegible.handles⟩ fun e he c => ?_
  refine ⟨hwritable.directives _ hl e he, fun k limit n _ hn => ?_⟩
  have hcount := hwritable.counts _ hl e he
  rw [hn] at hcount
  exact hcount

/-- A turn of a documented validator does not fail unless it is stuck or its name is refused. -/
theorem Documented.passes_iff (h : v.Documented) (hooks : Hooks) (plan : Plan) (params : Entries Value)
    (before : List String) (name : String) :
    Passes hooks v.resetFields plan params before name ↔
      v.Tolerates name ∧ ¬v.Stuck hooks plan params before name := by
  refine (passes_under_iff v.options.policy params before name).trans (and_congr Iff.rfl ?_)
  constructor
  · rintro hchecks ⟨f, x, hf, hx, hstuck⟩
    obtain ⟨y, hy, hcheckable⟩ := hchecks f hf
    obtain rfl := Except.ok.inj (hy.symm.trans hx)
    exact Field.stuck_iff_not_checkable.1 hstuck hcheckable
  · intro hnone f hf
    obtain ⟨l, hl, -⟩ := Entries.exists_mem_of_lookup hf
    obtain ⟨x, hx⟩ := Field.checkedValue_returns (h.listed _ hl) hooks.filter (params.lookup (.str name))
    rw [← h.filters] at hx
    refine ⟨x, hx, ?_⟩
    by_contra hchecks
    exact hnone ⟨f, x, hf, hx, Field.stuck_iff_not_checkable.2 hchecks⟩

section

variable {run w : Run} {name : String} {e : Fault}

/-- The turn of a declared name fails as the check of its field does. -/
theorem checkName_error (hv : v.Plain) (hkeeps : run.Keeps v.fields) {f : Field}
    (hf : v.fields.lookup (.str name) = some f) {x : Value}
    (hx : f.checkedValue hooks.filter v.filters (run.params.lookup (.str name)) = .ok x)
    (h : (Run.checkName hooks v plan name).run run = (.error e, w)) : e.IsConversion := by
  have hget : Returns (get : RunM Run) run run run := Returns.get_iff.2 ⟨rfl, rfl⟩
  rw [← hkeeps, Entries.lookup_mapValues] at hf
  obtain ⟨g, hg, rfl⟩ := Option.map_eq_some_iff.1 hf
  obtain ⟨-, hself⟩ := hkeeps.lookup_turn hv.names hg
  rw [Run.checkName, hget.run_bind, hg] at h
  dsimp only at h
  generalize (plan.toggles.lookup (.str name)).getD .declared = toggle at h
  have hcallback : ({ g with name := .str name, toggle } : Field).validation.isCallback = false := by
    obtain ⟨l, hl, -⟩ := Entries.exists_mem_of_lookup (hself toggle)
    exact hv.validation _ hl
  obtain h | ⟨_, u, hset, h⟩ := run_bind_eq_error_iff.1 h
  · cases congrArg Prod.fst h
  · obtain rfl := Returns.modify_iff.1 hset
    refine Run.checkField_error hv.checks hcallback (x := x) ?_ h
    rw [← hx]
    exact Field.checkedValue_congr rfl _ _ _

/-- The turn of a name that is not declared fails for that. -/
theorem checkName_error_of_undeclared (hkeeps : run.Keeps v.fields) (hf : v.fields.lookup (.str name) = none)
    (h : (Run.checkName hooks v plan name).run run = (.error e, w)) : e = .unknownField (.str name) := by
  have hget : Returns (get : RunM Run) run run run := Returns.get_iff.2 ⟨rfl, rfl⟩
  rw [Run.checkName, hget.run_bind, hkeeps.lookup_eq_none hf] at h
  dsimp only at h
  rw [Run.unknown, hget.run_bind] at h
  unfold Policy.tolerate at h
  split at h
  · cases congrArg Prod.fst h
  · exact (Except.error.inj (congrArg Prod.fst h)).symm

end

/-- What is stuck is declared. -/
theorem Stuck.declared {params : Entries Value} {before : List String} {name : String}
    (h : v.Stuck hooks plan params before name) : v.fields.lookup (.str name) ≠ none := by
  obtain ⟨f, x, hf, -⟩ := h
  rw [hf]
  exact Option.some_ne_none f

namespace Ready

variable {targets : List Value} {run₀ : Run} (h : Ready hooks v targets plan run₀)

include h

/-- If a run fails, it fails in the first turn that does not pass after those before it. -/
theorem exists_failing_turn {e : Fault} (hanswer : (v.validate hooks targets).answer = .error e) :
    ∃ before name after r w, plan.selected = before ++ name :: after ∧
      (∀ done n rest, before = done ++ n :: rest → Passes hooks v.resetFields plan run₀.params done n) ∧
      ¬Passes hooks v.resetFields plan run₀.params before name ∧
      r.Keeps v.resetFields.fields ∧ r.params.lookup (.str name) = run₀.params.lookup (.str name) ∧
      (Run.checkName hooks v.resetFields plan name).run r = (.error e, w) := by
  rcases hrun : (Run.checkFields hooks v.resetFields plan plan.selected).run run₀ with ⟨outcome, w⟩
  obtain rfl : outcome = .error e :=
    map_eq_error_iff.1 ((validate_of_run (h.planned.run_bind.trans hrun)).1.symm.trans hanswer)
  obtain ⟨before, name, after, r, hcomes, hfails⟩ := exists_comes_of_error hrun
  have hnodup := h.nodup
  rw [hcomes.split] at hnodup
  obtain ⟨hbefore, -, hdisjoint⟩ := List.nodup_append.1 hnodup
  have hname : name ∉ before := fun hmem => hdisjoint name hmem name List.mem_cons_self rfl
  have hkeeps : r.Keeps v.resetFields.fields := hcomes.returns.leaves_iff.1
    (Run.checkFields_keeps hooks v.resetFields plan h.plain.names before h.keeps)
  have hparams := checkFields_params h.plain hbefore h.keeps h.distinct hcomes.returns
  have hdistinct : r.params.Distinct := by
    rw [hparams]
    exact h.distinct.of_keys (keys_checkedParams _ _)
  have hlookup : r.params.lookup (.str name) = run₀.params.lookup (.str name) := by
    rw [hparams, lookup_checkedParams_of_not_mem hname]
  refine ⟨before, name, after, r, w, hcomes.split, ?_, ?_, hkeeps, hlookup, hfails⟩
  · exact (checkFields_settles_iff h.plain hbefore h.keeps h.distinct).1 ⟨(), r, hcomes.returns⟩
  · have hothers : ∀ n ∈ before, n ∉ [] ++ [name] :=
      fun n hn hmem => hname (List.mem_singleton.1 hmem ▸ hn)
    have hturn : Passes hooks v.resetFields plan (checkedParams hooks v.resetFields before run₀.params) [] name ↔
        Passes hooks v.resetFields plan run₀.params (before ++ []) name :=
      passes_append_iff hothers run₀.params
    rw [List.append_nil, ← hparams, ← checkName_settles_iff h.plain hkeeps hdistinct] at hturn
    rw [← hturn]
    rintro ⟨_, u, hu⟩
    cases congrArg Prod.fst (hfails.symm.trans hu)

/-- A run of a documented validator gets stuck and fails for a conversion, or it does not get stuck, and
returns or fails for a name that is not declared. -/
theorem answer_cases (hv : v.Documented) :
    (¬v.GetsStuck hooks plan run₀.params ∧
        ((∃ b, (v.validate hooks targets).answer = .ok b) ∨
          ∃ name, (v.validate hooks targets).answer = .error (.unknownField (.str name)))) ∨
      (v.GetsStuck hooks plan run₀.params ∧
        ∃ e, (v.validate hooks targets).answer = .error e ∧ e.IsConversion) := by
  have hpasses := hv.passes_iff hooks plan run₀.params
  cases hanswer : (v.validate hooks targets).answer with
  | ok b =>
    refine .inl ⟨?_, .inl ⟨b, rfl⟩⟩
    rintro ⟨before, name, after, hsplit, -, hstuck⟩
    exact ((hpasses before name).1 (h.returns_iff.1 ⟨b, hanswer⟩ before name after hsplit)).2 hstuck
  | error e =>
    obtain ⟨before, name, after, r, w, hsplit, hbefore, hnot, hkeeps, hparams, hfails⟩ :=
      h.exists_failing_turn hanswer
    have htolerates : ∀ n ∈ before, v.Tolerates n := by
      intro n hn
      obtain ⟨done, rest, hdone⟩ := List.append_of_mem hn
      exact ((hpasses done n).1 (hbefore done n rest hdone)).1
    rw [hpasses, not_and_not_right] at hnot
    cases hf : v.fields.lookup (.str name) with
    | none =>
      obtain rfl := checkName_error_of_undeclared hkeeps (lookup_resetFields_eq_none_iff.2 hf) hfails
      refine .inl ⟨?_, .inr ⟨name, rfl⟩⟩
      rintro ⟨before', stuck, after', hsplit', htolerates', hstuck⟩
      -- The run does not come to what is after the name.
      have hrefused : name ∉ before' := fun hmem => (hnot (htolerates' name hmem)).declared hf
      obtain ⟨between, rfl, htail⟩ | ⟨between, rfl, htail⟩ :=
        List.append_eq_append_iff.1 (hsplit.symm.trans hsplit')
      · cases between with
        | nil =>
          obtain ⟨rfl, -⟩ := List.cons.inj htail
          exact hstuck.declared hf
        | cons n rest =>
          obtain ⟨rfl, -⟩ := List.cons.inj htail
          exact hrefused (List.mem_append_right _ List.mem_cons_self)
      · cases between with
        | nil =>
          obtain ⟨rfl, -⟩ := List.cons.inj htail
          exact hstuck.declared hf
        | cons n rest =>
          obtain ⟨rfl, -⟩ := List.cons.inj htail
          exact ((hpasses before' stuck).1 (hbefore before' stuck rest rfl)).2 hstuck
    | some f =>
      have hstuck := hnot fun hnone => absurd (hnone.symm.trans hf) (Option.some_ne_none f).symm
      refine .inr ⟨⟨before, name, after, hsplit, htolerates, hstuck⟩, e, rfl, ?_⟩
      obtain ⟨f', x, hf', hx, -⟩ := hstuck
      obtain rfl := Option.some.inj (hf.symm.trans hf')
      refine checkName_error h.plain hkeeps (f := f.reset) (x := x) ?_ ?_ hfails
      · exact lookup_resetFields hf
      · rw [hparams, ← hx]
        exact Field.checkedValue_congr rfl _ _ _

end Ready

end Validator
end ParamCheck
