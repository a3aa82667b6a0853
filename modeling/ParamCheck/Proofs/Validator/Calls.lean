import ParamCheck.Proofs.Returns
import ParamCheck.Validator.Run

/-!
# The calls of a run

Which validation callbacks a run calls cannot be told from its outcome. A traced run is the same run, but
it notes each call in a list (`Traced.ask`); everything else is taken over from the run (`Traced.silent`).
Leaving the list out gives back the run (`Traced.Erases`, `Traced.erases_runTargets`), so the calls of a
traced run are those of the run (`Validator.calls`).
-/

namespace ParamCheck

/-- A call of a validation callback: the name whose turn it is, the callback, the field as it is given to
it, and what it can see of the run. -/
structure Call where
  name : String
  hook : String
  field : Field
  view : View

/-- What the callback does when it is called. -/
def Call.script (hooks : Hooks) (c : Call) : Script := hooks.validation c.hook c.field c.view

/-- A computation of a run that notes its calls. -/
abbrev Traced := ExceptT Fault (StateM (Run × List Call))

namespace Traced

variable {α β : Type}

/-- A computation of a run that calls nothing. -/
def silent (x : RunM α) : Traced α :=
  ExceptT.mk fun s => ((x.run s.1).1, (x.run s.1).2, s.2)

variable (hooks : Hooks) (v : Validator) (plan : Plan)

/-- Call a validation callback. -/
def ask (c : Call) : Traced Script := do
  modify fun s => (s.1, s.2 ++ [c])
  return c.script hooks

/-- Ask the validation callback of a field, and record a message if it refuses without one. -/
def checkValidation (name : String) : Traced Unit := do
  let run ← silent get
  let f := (run.fields.lookup (.str name)).getD default
  match f.validation with
  | .null => return ()
  | .callback hook => do
    let script ← ask hooks ⟨name, hook, f, run.view⟩
    let answer ← silent (Run.play (.str name) script)
    let last ← silent get
    let after := ((last.fields.lookup (.str name)).getD default).errors.length
    if !answer.truthy && after = f.errors.length then
      silent (Run.complain (.str name) f " did not pass validation")
  | _ => throw .badType

/-- Check the value of a field. -/
def checkValue (name : String) (value : Value) (f : Field) : Traced Unit := do
  if f.isRequired && value.isBlank then
    silent (Run.complain (.str name) f " is required")
  else do
    if f.isRequired || value.hasValue then
      silent (Run.checkDirectives hooks v (.str name) value f.directives)
    if plan.hasParams then
      checkValidation hooks name

/-- Check one field. -/
def checkField (name : String) (f : Field) : Traced Unit := do
  let value ← silent (Run.takeValue hooks v plan (.str name) f)
  silent (Run.setField (.str name) { f with value })
  checkValue hooks v plan name value f

/-- Check the field of a selected name. -/
def checkName (name : String) : Traced Unit := do
  let run ← silent get
  match run.fields.lookup (.str name) with
  | none => silent (Run.unknown v (.unknownField (.str name)))
  | some f => do
    let toggle := (plan.toggles.lookup (.str name)).getD .declared
    let f := { f with name := .str name, toggle }
    silent (Run.setField (.str name) f)
    checkField hooks v plan name f

/-- Check the fields of a list of names. -/
def checkFields : List String → Traced Unit
  | [] => return ()
  | name :: rest => do
    checkName hooks v plan name
    checkFields rest

/-- A whole run. -/
def runTargets (targets : List Value) : Traced Unit := do
  let plan ← silent (v.plan targets)
  checkFields hooks v plan plan.selected

/-! ## Leaving out the calls -/

/-- Without its calls, the traced computation is the other one. -/
def Erases (t : Traced α) (x : RunM α) : Prop :=
  ∀ s, ((t.run s).1, (t.run s).2.1) = x.run s.1

namespace Erases

/-- A computation that calls nothing has nothing to leave out. -/
theorem silent (x : RunM α) : Erases (Traced.silent x) x := fun _ => rfl

/-- A value that is given at once. -/
theorem pure (a : α) : Erases (Pure.pure a) (Pure.pure a) := fun _ => rfl

/-- A failure. -/
theorem throw (e : Fault) : Erases (MonadExcept.throw e : Traced α) (MonadExcept.throw e) := fun _ => rfl

/-- Two computations in a row. -/
theorem bind {t : Traced α} {x : RunM α} {t' : α → Traced β} {x' : α → RunM β} (h : Erases t x)
    (h' : ∀ a, Erases (t' a) (x' a)) : Erases (t >>= t') (x >>= x') := by
  intro s
  have hfirst := h s
  rw [run_bind, run_bind, ← hfirst]
  rcases t.run s with ⟨result, run, calls⟩
  cases result with
  | ok a => exact h' a (run, calls)
  | error e => rfl

/-- A choice between two computations. -/
theorem ite {p : Prop} [Decidable p] {t t' : Traced α} {x x' : RunM α} (h : Erases t x)
    (h' : Erases t' x') : Erases (if p then t else t') (if p then x else x') := by
  split
  · exact h
  · exact h'

variable {t : Traced α} {x : RunM α}

/-- If the traced computation returns, so does the other one. -/
theorem returns (h : Erases t x) {s s' : Run × List Call} {a : α} (ht : Returns t s a s') :
    Returns x s.1 a s'.1 := by
  unfold Returns at ht ⊢
  rw [← h s, ht]

/-- If the computation returns, so does the traced one. -/
theorem exists_returns (h : Erases t x) {s : Run × List Call} {a : α} {run : Run}
    (hx : Returns x s.1 a run) : Returns t s a (run, (t.run s).2.2) := by
  unfold Returns at hx ⊢
  have hs := h s
  rw [hx] at hs
  obtain ⟨hresult, hrun⟩ := Prod.mk.inj hs
  rw [← hresult, ← hrun]
  rfl

/-- A call gives the script of the callback at once. -/
theorem ask_bind {hooks : Hooks} {c : Call} {t' : Script → Traced β} {x' : RunM β}
    (h : Erases (t' (c.script hooks)) x') : Erases (ask hooks c >>= t') x' := by
  intro s
  rw [run_bind]
  exact h (s.1, s.2 ++ [c])

end Erases

/-- Without its calls, the traced validation is that of the run. -/
theorem erases_checkValidation (name : String) :
    Erases (checkValidation hooks name) (Run.checkValidation hooks (.str name)) := by
  refine .bind (.silent get) fun run => ?_
  dsimp only
  cases (run.fields.lookup (.str name)).getD default |>.validation with
  | null => exact .pure ()
  | callback hook =>
    refine .ask_bind (.bind (.silent _) fun answer => ?_)
    exact .bind (.silent get) fun last => .ite (.silent _) (.pure ())
  | _ => exact .throw _

/-- Without its calls, the traced check of a value is that of the run. -/
theorem erases_checkValue (name : String) (value : Value) (f : Field) :
    Erases (checkValue hooks v plan name value f) (Run.checkValue hooks v plan (.str name) value f) := by
  have hlast : Erases (if plan.hasParams then checkValidation hooks name else Pure.pure ())
      (if plan.hasParams then Run.checkValidation hooks (.str name) else Pure.pure ()) :=
    .ite (erases_checkValidation hooks name) (.pure ())
  exact .ite (.silent _) (.ite (.bind (.silent _) fun _ => hlast) hlast)

/-- Without its calls, the traced turn of a name is that of the run. -/
theorem erases_checkName (name : String) :
    Erases (checkName hooks v plan name) (Run.checkName hooks v plan name) := by
  refine .bind (.silent get) fun run => ?_
  cases run.fields.lookup (.str name) with
  | none => exact .silent _
  | some f =>
    refine .bind (.silent _) fun _ => .bind (.silent _) fun value => .bind (.silent _) fun _ => ?_
    exact erases_checkValue hooks v plan name value _

/-- Without their calls, the traced turns of names are those of the run. -/
theorem erases_checkFields (names : List String) :
    Erases (checkFields hooks v plan names) (Run.checkFields hooks v plan names) := by
  induction names with
  | nil => exact .pure ()
  | cons name rest ih => exact .bind (erases_checkName hooks v plan name) fun _ => ih

/-- Without its calls, the traced run is the run. -/
theorem erases_runTargets (targets : List Value) :
    Erases (runTargets hooks v targets) (v.runTargets hooks targets) :=
  .bind (.silent _) fun plan => erases_checkFields hooks v plan plan.selected

/-! ## Computations that return -/

section

variable {hooks v plan} {s s' : Run × List Call}

/-- A computation that calls nothing returns if that of the run does. -/
theorem returns_silent_iff {x : RunM α} {a : α} :
    Returns (silent x) s a s' ↔ Returns x s.1 a s'.1 ∧ s'.2 = s.2 := by
  unfold Returns
  constructor
  · intro h
    obtain ⟨hresult, hstate⟩ := Prod.mk.inj h
    subst hstate
    exact ⟨Prod.ext hresult rfl, rfl⟩
  · rintro ⟨h, hcalls⟩
    have hresult : (x.run s.1).1 = .ok a := congrArg Prod.fst h
    have hrun : (x.run s.1).2 = s'.1 := congrArg Prod.snd h
    exact Prod.ext hresult (Prod.ext hrun hcalls.symm)

/-- What follows a look at the state of the run. -/
theorem returns_get_bind_iff {f : Run → Traced β} {b : β} :
    Returns (silent get >>= f) s b s' ↔ Returns (f s.1) s b s' := by
  rw [Returns.bind_iff]
  constructor
  · rintro ⟨r, u, hget, h⟩
    obtain ⟨hget, hcalls⟩ := returns_silent_iff.1 hget
    obtain ⟨rfl, hrun⟩ := Returns.get_iff.1 hget
    rwa [Prod.ext hrun.symm hcalls] at h
  · intro h
    exact ⟨s.1, s, returns_silent_iff.2 ⟨Returns.get_iff.2 ⟨rfl, rfl⟩, rfl⟩, h⟩

/-- A call is noted, and the callback gives its script. -/
theorem returns_ask_iff {c : Call} {script : Script} :
    Returns (ask hooks c) s script s' ↔
      c.script hooks = script ∧ (s.1, s.2 ++ [c]) = s' := by
  unfold ask
  simp only [Returns.bind_iff, Returns.modify_iff, Returns.pure_iff]
  constructor
  · rintro ⟨_, _, rfl, rfl, rfl⟩
    exact ⟨rfl, rfl⟩
  · rintro ⟨rfl, rfl⟩
    exact ⟨(), _, rfl, rfl, rfl⟩

/-- Traced turns can be taken in two goes. -/
theorem checkFields_append {before : List String} (after : List String) {u : Unit} :
    ∀ {s}, Returns (checkFields hooks v plan (before ++ after)) s u s' →
      ∃ r, Returns (checkFields hooks v plan before) s () r ∧
        Returns (checkFields hooks v plan after) r u s' := by
  induction before with
  | nil => exact fun {s} h => ⟨s, rfl, h⟩
  | cons name rest ih =>
    intro s h
    obtain ⟨_, w, hname, hrest⟩ := Returns.bind_iff.1 h
    obtain ⟨r, hbefore, hafter⟩ := ih hrest
    exact ⟨r, Returns.bind_iff.2 ⟨(), w, hname, hbefore⟩, hafter⟩

end

end Traced

/-- The calls of validation callbacks that a run makes, in order. -/
def Validator.calls (hooks : Hooks) (v : Validator) (targets : List Value) : List Call :=
  ((Traced.runTargets hooks v.resetFields targets).run
    ({ params := v.params, fields := v.resetFields.fields }, [])).2.2

/-- The traced turns of a run that returns make its calls. -/
theorem Validator.returns_calls {hooks : Hooks} {v : Validator} {targets : List Value} {plan : Plan}
    {run₀ run : Run}
    (hplan : Returns (v.resetFields.plan targets)
      { params := v.params, fields := v.resetFields.fields } plan run₀)
    (hturns : Returns (Run.checkFields hooks v.resetFields plan plan.selected) run₀ () run) :
    Returns (Traced.checkFields hooks v.resetFields plan plan.selected) (run₀, []) ()
      (run, v.calls hooks targets) := by
  have htraced := (Traced.erases_checkFields hooks v.resetFields plan plan.selected).exists_returns
    (s := (run₀, [])) hturns
  have hrun : Returns (Traced.runTargets hooks v.resetFields targets)
      ({ params := v.params, fields := v.resetFields.fields }, []) () _ :=
    Returns.bind_iff.2 ⟨plan, (run₀, []), Traced.returns_silent_iff.2 ⟨hplan, rfl⟩, htraced⟩
  unfold calls
  rw [show (Traced.runTargets hooks v.resetFields targets).run _ = _ from hrun]
  exact htraced

end ParamCheck
