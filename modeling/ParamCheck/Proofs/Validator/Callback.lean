import ParamCheck.Proofs.Validator.Answer
import ParamCheck.Proofs.Validator.Calls
import ParamCheck.Proofs.Validator.Verdict

/-!
# Validation callbacks

A validation callback that records messages against its own field only makes no difference to other fields
(`Traced.checkName_frame`). At the end of the turn of its own field it is called at most once
(`Traced.checkName_eq`): if the run has parameters and the field is not required and blank. Then the field
is what the answer and the messages of the callback make of it (`Field.judged`): a callback that refuses
leaves a message in any case, and one that accepts and is silent leaves the field as the checks of its
directives have (`Validator.validate_callback`).
-/

namespace ParamCheck

/-! ## Effects on one field -/

/-- The effect records no message against another field than that of the given name. -/
def Effect.StaysOn (name : Value) : Effect → Prop
  | .recordFor field _ => field.key? = name.key?
  | .record _ | .setParam .. | .dropParam _ => True

/-- The message that an effect records. -/
def Effect.message? : Effect → Option Value
  | .record message | .recordFor _ message => some message
  | .setParam .. | .dropParam _ => none

namespace Field

/-- The messages of a field stay when others are recorded. -/
theorem exists_errors_recorded (f : Field) (ms : List Value) :
    ∃ tail, (f.recorded ms).errors = f.errors ++ tail := by
  obtain ⟨tail, htail, -⟩ := Report.exists_addAll_eq_append (ms.map (Report.effective f))
    (fun m => (rfl : f.errors.any m.same = f.errors.any m.same))
  exact ⟨tail, htail⟩

/-- A field has messages once one is recorded. -/
theorem errors_recorded_ne_nil (f : Field) (m : Value) : (f.recorded [m]).errors ≠ [] :=
  Report.add_ne_nil f.errors (Report.effective f m)

/-- The message about a field that its callback refuses without a message. -/
def refusal (f : Field) : Value := .str (f.handle.text ++ " did not pass validation")

/-- The field once its validation callback has recorded messages and has answered: if it refuses and none of
the messages is new, the refusal is recorded, too. -/
def judged (f : Field) (answer : Value) (messages : List Value) : Field :=
  if !answer.truthy && (f.recorded messages).errors.length = f.errors.length then
    f.recorded (messages ++ [f.refusal])
  else f.recorded messages

/-- A callback leaves what is declared of the field, its value and its toggle. -/
theorem judged_eq (f : Field) (answer : Value) (messages : List Value) :
    ∃ errors, f.judged answer messages = { f with errors } := by
  unfold judged
  split <;> exact ⟨_, rfl⟩

/-- A field that is refused has messages, whatever messages there are and whatever replaces them. -/
theorem judged_errors_ne_nil (f : Field) {answer : Value} (h : answer.truthy = false)
    (messages : List Value) : (f.judged answer messages).errors ≠ [] := by
  unfold judged
  split
  · rw [← recorded_recorded]
    exact errors_recorded_ne_nil _ _
  · next hlength =>
    -- The callback has recorded something new.
    obtain ⟨tail, htail⟩ := f.exists_errors_recorded messages
    rintro hnil
    rw [h, hnil] at hlength
    rw [hnil] at htail
    have hnone : f.errors = [] := (List.append_eq_nil_iff.1 htail.symm).1
    exact hlength (by simp [hnone])

/-- A field that is accepted in silence is left as it is. -/
theorem judged_of_silent (f : Field) {answer : Value} (h : answer.truthy = true) :
    f.judged answer [] = f := by
  unfold judged
  rw [h]
  rfl

end Field

namespace Run

variable {run run' : Run} {u : Unit} {name : Value} {f : Field}

/-- Messages are recorded with the field that a key finds. -/
theorem record_congr {k : Value} (h : k.key? = name.key?) (hf : run.fields.lookup name = some f)
    (message : Value) :
    Returns (record k message) run u run' ↔ Returns (record name message) run u run' := by
  have hk : run.fields.lookup k = some f := (Entries.lookup_congr h _).trans hf
  rw [record, record, Returns.get_bind_iff, Returns.get_bind_iff, hk, hf]
  simp only [Entries.insert_congr h hk]

/-- Effects that stay on one field leave it with their messages, and all other fields as they are. -/
theorem perform_fields {effects : List Effect} (h : ∀ e ∈ effects, e.StaysOn name) :
    ∀ {run : Run} {f : Field}, run.fields.lookup name = some f →
      Returns (perform name effects) run u run' →
        run'.fields = run.fields.insert name (f.recorded (effects.filterMap Effect.message?)) := by
  induction effects with
  | nil =>
    intro run f hf hrun
    obtain ⟨-, rfl⟩ := Returns.pure_iff.1 hrun
    exact (Entries.insert_of_lookup hf).symm
  | cons e rest ih =>
    intro run f hf hrun
    obtain ⟨he, hrest⟩ := List.forall_mem_cons.1 h
    -- A message is recorded, and then those of the other effects.
    have hrecord : ∀ k message, k.key? = name.key? →
        Returns (do record k message; perform name rest) run u run' →
          run'.fields = run.fields.insert name
            (f.recorded (message :: rest.filterMap Effect.message?)) := by
      intro k message hk hrun
      obtain ⟨_, w, hfirst, hlast⟩ := Returns.bind_iff.1 hrun
      obtain rfl := record_eq hf ((record_congr hk hf message).1 hfirst)
      rw [ih hrest (lookup_withMessages run name f [message]) hlast, Field.recorded_recorded]
      exact Entries.insert_insert _ _ _ _
    -- Parameters are none of the fields.
    have hparams : ∀ g : Run → Run, (g run).fields = run.fields →
        Returns (do modify g; perform name rest) run u run' →
          run'.fields = run.fields.insert name (f.recorded (rest.filterMap Effect.message?)) := by
      intro g hg hrun
      obtain ⟨_, w, hfirst, hlast⟩ := Returns.bind_iff.1 hrun
      obtain rfl := Returns.modify_iff.1 hfirst
      rw [ih hrest (hg.symm ▸ hf) hlast, hg]
    cases e with
    | record message => exact hrecord name message rfl hrun
    | recordFor field message => exact hrecord field message he hrun
    | setParam key x => exact hparams _ rfl hrun
    | dropParam key => exact hparams _ rfl hrun

end Run

/-! ## Traced turns -/

/-- The validation callback of a field is to be called once its checks have left it as it is: the run has
parameters, and the field is not required and blank. -/
def Plan.Consults (plan : Plan) (f : Field) : Prop :=
  plan.hasParams = true ∧ ¬(f.isRequired = true ∧ f.value.isBlank = true)

/-- How the turn of a field ends whose checks have left it as `h`: if its callback is to be `consulted` at
all, it is called with the parameters as they are, and the field is what it makes of it. -/
inductive Concluded (hooks : Hooks) (consulted : Prop) (name : String) (params : Entries Value)
    (h : Field) : Field → List Call → Prop
  | alone : (consulted → h.validation = .null) → Concluded hooks consulted name params h h []
  | asked {c : Call} {answer : Value} : consulted → c.name = name → c.field = h →
      h.validation = .callback c.hook → c.view.params = params →
        (c.script hooks).answer = .ok answer →
          Concluded hooks consulted name params h
            (h.judged answer ((c.script hooks).effects.filterMap Effect.message?)) [c]

namespace Concluded

variable {hooks : Hooks} {consulted : Prop} {name : String} {params : Entries Value} {h g : Field}
  {new : List Call}

/-- The end of a turn changes nothing of the field but its messages. -/
theorem exists_errors (hc : Concluded hooks consulted name params h g new) :
    ∃ errors, g = { h with errors } := by
  cases hc with
  | alone => exact ⟨h.errors, rfl⟩
  | asked => exact h.judged_eq _ _

/-- The callback is called for the name whose turn it is. -/
theorem name_eq (hc : Concluded hooks consulted name params h g new) : ∀ c ∈ new, c.name = name := by
  cases hc with
  | alone => exact fun c hc => absurd hc List.not_mem_nil
  | asked _ hname =>
    intro c hc
    rw [List.mem_singleton.1 hc]
    exact hname

/-- A callback is called once if it is to be consulted, and otherwise it is not called. -/
theorem called (hc : Concluded hooks consulted name params h g new) {hook : String}
    (hvalidation : h.validation = .callback hook) :
    (consulted ∧ ∃ c, new = [c]) ∨ (¬consulted ∧ new = []) := by
  cases hc with
  | alone hnone =>
    refine .inr ⟨fun hconsulted => ?_, rfl⟩
    rw [hnone hconsulted] at hvalidation
    cases hvalidation
  | asked hconsulted => exact .inl ⟨hconsulted, _, rfl⟩

end Concluded

/-- Validation callbacks record messages against the field that they are given only. -/
def Hooks.OwnField (hooks : Hooks) : Prop :=
  ∀ hook f view, ∀ e ∈ (hooks.validation hook f view).effects, e.StaysOn f.name

namespace Traced

open Validator (turned)

variable {hooks : Hooks} {v : Validator} {plan : Plan} {s s' : Run × List Call} {u : Unit}
  {name : String} {f g : Field}

/-- The validation of a field concludes its turn. -/
theorem checkValidation_eq (hown : hooks.OwnField) (hf : s.1.fields.lookup (.str name) = some f)
    (hname : f.name = .str name) {consulted : Prop} (hconsulted : consulted)
    (h : Returns (checkValidation hooks name) s u s') :
    ∃ g new, Concluded hooks consulted name s.1.params f g new ∧ s'.2 = s.2 ++ new ∧
      s'.1.fields = s.1.fields.insert (.str name) g := by
  rw [checkValidation, returns_get_bind_iff, hf, Option.getD_some] at h
  dsimp only at h
  cases hvalidation : f.validation with
  | null =>
    rw [hvalidation] at h
    obtain ⟨-, rfl⟩ := Returns.pure_iff.1 h
    exact ⟨f, [], .alone fun _ => hvalidation, (List.append_nil _).symm,
      (Entries.insert_of_lookup hf).symm⟩
  | callback hook =>
    rw [hvalidation] at h
    dsimp only at h
    generalize hc : (⟨name, hook, f, s.1.view⟩ : Call) = c at h
    have hstays : ∀ e ∈ (c.script hooks).effects, e.StaysOn (.str name) := by
      rw [← hc, ← hname]
      exact hown hook f s.1.view
    obtain ⟨script, _, hask, h⟩ := Returns.bind_iff.1 h
    obtain ⟨rfl, rfl⟩ := returns_ask_iff.1 hask
    obtain ⟨answer, w, hplay, h⟩ := Returns.bind_iff.1 h
    obtain ⟨hplay, hcalls⟩ := returns_silent_iff.1 hplay
    obtain ⟨_, t, hperform, hgiven⟩ := Returns.bind_iff.1 hplay
    obtain ⟨hanswer, rfl⟩ := Returns.liftM_iff.1 hgiven
    have hfields := Run.perform_fields hstays hf hperform
    have hlast : w.1.fields.lookup (.str name) =
        some (f.recorded ((c.script hooks).effects.filterMap Effect.message?)) := by
      rw [hfields, Entries.lookup_insert, if_pos rfl]
    have hconcluded : Concluded hooks consulted name s.1.params f
        (f.judged answer ((c.script hooks).effects.filterMap Effect.message?)) [c] := by
      subst hc
      exact .asked hconsulted rfl rfl hvalidation rfl hanswer
    refine ⟨_, _, hconcluded, ?_⟩
    rw [returns_get_bind_iff, hlast, Option.getD_some] at h
    unfold Field.judged
    split at h
    · next hrefused =>
      obtain ⟨hrecord, hcalls'⟩ := returns_silent_iff.1 h
      refine ⟨hcalls'.trans hcalls, ?_⟩
      rw [if_pos hrefused, Run.complain_eq hlast hrecord, ← Field.recorded_recorded]
      show Entries.insert w.1.fields _ _ = _
      rw [hfields, Entries.insert_insert]
      rfl
    · next haccepted =>
      obtain ⟨-, rfl⟩ := Returns.pure_iff.1 h
      rw [if_neg haccepted]
      exact ⟨hcalls, hfields⟩
  | _ =>
    rw [hvalidation] at h
    exact absurd h Returns.throw_iff.1

/-- The check of a value records the messages that are expected, and the validation of the field concludes its
turn. -/
theorem checkValue_eq (hown : hooks.OwnField) (hbuiltin : v.directives.OnlyBuiltin) {value : Value}
    (hf : s.1.fields.lookup (.str name) = some { f with value }) (hname : f.name = .str name)
    (h : Returns (checkValue hooks v plan name value f) s u s') :
    let checked := ({ f with value } : Field).recorded (f.expected hooks.search v.directives value s.1.scene)
    ∃ g new, Concluded hooks (plan.Consults checked) name s.1.params checked g new ∧
      s'.2 = s.2 ++ new ∧ s'.1.fields = s.1.fields.insert (.str name) g := by
  -- What follows the checks of the directives, if the field is not required and blank.
  have hlast : ∀ messages, (f.isRequired && value.isBlank) = false →
      Returns (if plan.hasParams then checkValidation hooks name else pure ())
          (s.1.withMessages (.str name) { f with value } messages, s.2) u s' →
        let checked := ({ f with value } : Field).recorded messages
        ∃ g new, Concluded hooks (plan.Consults checked) name s.1.params checked g new ∧
          s'.2 = s.2 ++ new ∧ s'.1.fields = s.1.fields.insert (.str name) g := by
    intro messages hfilled h
    split at h
    · next hparams =>
      have hconsults : plan.Consults (({ f with value } : Field).recorded messages) := by
        refine ⟨hparams, fun hblank => ?_⟩
        rw [Bool.and_eq_false_iff] at hfilled
        rcases hfilled with hrequired | hvalue
        · exact Bool.false_ne_true (hrequired.symm.trans hblank.1)
        · exact Bool.false_ne_true (hvalue.symm.trans hblank.2)
      have hset := Run.lookup_withMessages s.1 (.str name) { f with value } messages
      obtain ⟨g, new, hconcluded, hcalls, hfields⟩ := checkValidation_eq
        (s := (s.1.withMessages (.str name) { f with value } messages, s.2))
        (f := ({ f with value } : Field).recorded messages) hown hset hname hconsults h
      refine ⟨g, new, hconcluded, hcalls, hfields.trans ?_⟩
      exact Entries.insert_insert _ _ _ _
    · next hparams =>
      obtain ⟨-, rfl⟩ := Returns.pure_iff.1 h
      exact ⟨_, [], .alone fun hconsults => absurd hconsults.1 hparams, (List.append_nil _).symm, rfl⟩
  unfold checkValue at h
  unfold Field.expected
  split at h
  · next hrequired =>
    rw [if_pos hrequired]
    obtain ⟨hrecord, hcalls⟩ := returns_silent_iff.1 h
    refine ⟨_, [], .alone fun hconsults => ?_, hcalls.trans (List.append_nil _).symm, ?_⟩
    · exact absurd (Bool.and_eq_true_iff.1 hrequired) hconsults.2
    · rw [Run.complain_eq hf hrecord]
      rfl
  · next hrequired =>
    rw [Bool.not_eq_true] at hrequired
    rw [hrequired, if_neg Bool.false_ne_true]
    dsimp only at h
    split at h
    · next hvalue =>
      rw [if_pos hvalue]
      obtain ⟨_, ⟨run, calls⟩, hchecks, h⟩ := Returns.bind_iff.1 h
      obtain ⟨hchecks, rfl⟩ := returns_silent_iff.1 hchecks
      obtain rfl := Run.checkDirectives_eq hbuiltin f.directives hf hchecks
      -- With its value the field has the same handle.
      have hsame : Field.failures hooks.search v.directives value { f with value } s.1.scene f.directives =
          f.failures hooks.search v.directives value s.1.scene f.directives :=
        Field.failures_congr (f := { f with value }) (g := f) hooks.search v.directives value rfl
          ⟨rfl, fun _ => rfl⟩ f.directives
      rw [← hsame]
      exact hlast _ hrequired h
    · next hvalue =>
      rw [if_neg hvalue]
      refine hlast [] hrequired ?_
      rw [Run.withMessages_nil hf]
      exact h

section

variable (hown : hooks.OwnField) (hbuiltin : v.directives.OnlyBuiltin)
  (hnames : ∀ e ∈ v.fields, e.2.name = e.1) (hkeeps : s.1.Keeps v.fields)

include hown hbuiltin hnames hkeeps

/-- The turn of a field takes its value into the run, checks it, and ends with the validation. -/
theorem checkName_eq (hf : s.1.fields.lookup (.str name) = some f)
    (h : Returns (checkName hooks v plan name) s u s') :
    ∃ x params g new,
      f.checkedValue hooks.filter v.filters (s.1.params.lookup (.str name)) = .ok x ∧
      params = (if s.1.params.contains (.str name) then s.1.params.insert (.str name) x
        else s.1.params) ∧
      Concluded hooks (plan.Consults (turned hooks.search v plan f name x params)) name params
        (turned hooks.search v plan f name x params) g new ∧
      s'.2 = s.2 ++ new ∧ s'.1.fields = s.1.fields.insert (.str name) g := by
  obtain ⟨hname, hself⟩ := hkeeps.lookup_turn hnames hf
  rw [checkName, returns_get_bind_iff, hf] at h
  dsimp only at h
  generalize htoggle : (plan.toggles.lookup (.str name)).getD .declared = toggle at h
  have hsame : ({ f with name := .str name, toggle } : Field) = { f with toggle } := by
    rw [← hname]
  have hself' := hself toggle
  rw [hsame] at h hself'
  simp only [checkField, Returns.bind_iff, returns_silent_iff, Run.setField, Returns.modify_iff] at h
  obtain ⟨_, ⟨run₁, calls₁⟩, ⟨hset, rfl⟩, x, ⟨taken, calls₂⟩, ⟨htaken, rfl⟩, _, ⟨run₃, calls₃⟩,
    ⟨hvalue, rfl⟩, h⟩ := h
  dsimp only at hset htaken hvalue
  subst hset hvalue
  obtain ⟨hx, hfields, hparams, -⟩ := Run.takeValue_eq htaken
  dsimp only at hx hfields hparams
  have hchecked : Entries.lookup (taken.fields.insert (.str name) { f with toggle, value := x })
      (.str name) = some { f with toggle, value := x } := by
    rw [Entries.lookup_insert, if_pos rfl]
  -- The checks see the handles of the declarations.
  have hkeeps' : Run.Keeps v.fields
      { taken with fields := taken.fields.insert (.str name) { f with toggle, value := x } } := by
    refine Run.Keeps.insert (?_ : taken.Keeps v.fields) hself'
    unfold Run.Keeps
    rw [hfields]
    exact hkeeps.insert hself'
  obtain ⟨g, new, hconcluded, hcalls, hlast⟩ := checkValue_eq (f := { f with toggle }) hown hbuiltin
    hchecked hname h
  have hturned : ({ f with toggle, value := x } : Field).recorded
      (({ f with toggle } : Field).expected hooks.search v.directives x ⟨taken.params,
        taken.fields.insert (.str name) { f with toggle, value := x }⟩) =
        turned hooks.search v plan f name x taken.params := by
    unfold turned
    rw [htoggle, Field.expected_congr hooks.search v.directives x rfl rfl (hkeeps'.alike taken.params)]
  refine ⟨x, taken.params, g, new, hx, hparams, ?_, hcalls, ?_⟩
  · rw [← hturned]
    exact hconcluded
  · rw [hlast]
    dsimp only
    rw [hfields, Entries.insert_insert, Entries.insert_insert]

/-- The turn of another name changes neither the field of a name nor the calls for it. -/
theorem checkName_frame {other : String} (hne : other ≠ name)
    (h : Returns (checkName hooks v plan other) s u s') :
    s'.1.fields.lookup (.str name) = s.1.fields.lookup (.str name) ∧
      s'.2.filter (·.name = name) = s.2.filter (·.name = name) := by
  cases hf : s.1.fields.lookup (.str other) with
  | none =>
    have hfields :=
      (Validator.checkName_of_no_field hf ((erases_checkName hooks v plan other).returns h)).2.1
    rw [checkName, returns_get_bind_iff, hf] at h
    rw [hfields, (returns_silent_iff.1 h).2]
    exact ⟨rfl, rfl⟩
  | some f =>
    obtain ⟨x, params, g, new, -, -, hconcluded, hcalls, hfields⟩ :=
      checkName_eq hown hbuiltin hnames hkeeps hf h
    constructor
    · rw [hfields, Entries.lookup_insert, if_neg]
      intro hkey
      exact hne (Value.str.inj (Value.eq_str_of_key? hkey))
    · have hnone : new.filter (·.name = name) = [] := by
        refine List.filter_eq_nil_iff.2 fun c hc => ?_
        rw [hconcluded.name_eq c hc]
        simpa using hne
      rw [hcalls, List.filter_append, hnone, List.append_nil]

omit hkeeps

/-- The turns of other names change neither the field of a name nor the calls for it. -/
theorem checkFields_frame {names : List String} (hname : name ∉ names) :
    ∀ {s : Run × List Call}, s.1.Keeps v.fields → Returns (checkFields hooks v plan names) s u s' →
      s'.1.fields.lookup (.str name) = s.1.fields.lookup (.str name) ∧
        s'.2.filter (·.name = name) = s.2.filter (·.name = name) := by
  induction names with
  | nil =>
    intro s _ h
    obtain ⟨-, rfl⟩ := Returns.pure_iff.1 h
    exact ⟨rfl, rfl⟩
  | cons other rest ih =>
    intro s hkeeps h
    obtain ⟨_, w, hturn, hrest⟩ := Returns.bind_iff.1 h
    obtain ⟨hne, hmem⟩ := List.ne_and_not_mem_of_not_mem_cons hname
    have hw : w.1.Keeps v.fields := ((erases_checkName hooks v plan other).returns hturn).leaves_iff.1
      (Run.checkName_keeps hooks v plan hnames hkeeps other)
    obtain ⟨hfield, hcalls⟩ := checkName_frame hown hbuiltin hnames hkeeps hne.symm hturn
    obtain ⟨hfield', hcalls'⟩ := ih hmem hw hrest
    exact ⟨hfield'.trans hfield, hcalls'.trans hcalls⟩

/-- What the turn of a field has concluded stays as it is, if the field has no other turn. -/
theorem checkFields_turn {before after : List String} (hnodup : (before ++ name :: after).Nodup)
    (hkeeps : s.1.Keeps v.fields) (hf : s.1.fields.lookup (.str name) = some f)
    (h : Returns (checkFields hooks v plan (before ++ name :: after)) s u s') :
    ∃ r x params g new, Returns (checkFields hooks v plan before) s () r ∧
      f.checkedValue hooks.filter v.filters (r.1.params.lookup (.str name)) = .ok x ∧
      params = (if r.1.params.contains (.str name) then r.1.params.insert (.str name) x
        else r.1.params) ∧
      Concluded hooks (plan.Consults (turned hooks.search v plan f name x params)) name params
        (turned hooks.search v plan f name x params) g new ∧
      s'.1.fields.lookup (.str name) = some g ∧
      s'.2.filter (·.name = name) = s.2.filter (·.name = name) ++ new := by
  obtain ⟨r, hbefore, hrest⟩ := checkFields_append (name :: after) h
  obtain ⟨_, w, hturn, hafter⟩ := Returns.bind_iff.1 hrest
  obtain ⟨-, hnodup', hdisjoint⟩ := List.nodup_append.1 hnodup
  have hnotbefore : name ∉ before := fun hmem => hdisjoint name hmem name List.mem_cons_self rfl
  have hr : r.1.Keeps v.fields := ((erases_checkFields hooks v plan before).returns hbefore).leaves_iff.1
    (Run.checkFields_keeps hooks v plan hnames before hkeeps)
  have hw : w.1.Keeps v.fields := ((erases_checkName hooks v plan name).returns hturn).leaves_iff.1
    (Run.checkName_keeps hooks v plan hnames hr name)
  obtain ⟨hfield, hcalls⟩ := checkFields_frame hown hbuiltin hnames hnotbefore hkeeps hbefore
  obtain ⟨x, params, g, new, hx, hparams, hconcluded, hnew, hfields⟩ :=
    checkName_eq hown hbuiltin hnames hr (hfield.trans hf) hturn
  obtain ⟨hfield', hcalls'⟩ :=
    checkFields_frame hown hbuiltin hnames (List.nodup_cons.1 hnodup').1 hw hafter
  refine ⟨r, x, params, g, new, hbefore, hx, hparams, hconcluded, ?_, ?_⟩
  · rw [hfield', hfields, Entries.lookup_insert, if_pos rfl]
  · have hall : new.filter (·.name = name) = new :=
      List.filter_eq_self.2 fun c hc => decide_eq_true (hconcluded.name_eq c hc)
    rw [hcalls', hnew, List.filter_append, hcalls, hall]

end

end Traced

/-! ## Runs -/

/-- How the run with the answer `b`, which leaves the field as `g`, heeds a call of its validation callback,
before which the checks of directives have left the `errors` with the field. -/
structure Call.Heeded (hooks : Hooks) (c : Call) (errors : List Value) (g : Field) (b : Bool) : Prop where
  /-- The callback sees the field as the checks have left it. -/
  field_eq : c.field = { g with errors }
  /-- It does answer. -/
  answers : ∃ answer, (c.script hooks).answer = .ok answer
  /-- If it refuses, there is a message with the field, and so in the report. -/
  refused : ∀ answer, (c.script hooks).answer = .ok answer → answer.truthy = false →
    g.errors ≠ [] ∧ b = false
  /-- If it accepts and records nothing, the messages are those of the checks. -/
  accepted : ∀ answer, (c.script hooks).answer = .ok answer → answer.truthy = true →
    (∀ e ∈ (c.script hooks).effects, e.message? = none) → g.errors = errors

namespace Validator

variable {hooks : Hooks} {v : Validator} {targets : List Value} {b : Bool}

/-- The call that concludes the turn of a field is heeded. -/
theorem heeded_of_concluded {consulted : Prop} {name : String} {params : Entries Value} {h g : Field}
    {c : Call} (hc : Concluded hooks consulted name params h g [c])
    (hanswer : g.errors ≠ [] → b = false) :
    h.validation = .callback c.hook ∧ c.view.params = params ∧ c.Heeded hooks h.errors g b := by
  cases hc with
  | @asked _ answer _ _ hfield hvalidation hparams hgiven =>
    obtain ⟨errors, hg⟩ := h.judged_eq answer ((c.script hooks).effects.filterMap Effect.message?)
    refine ⟨hvalidation, hparams, ?_, ⟨answer, hgiven⟩, ?_, ?_⟩
    · rw [hfield, hg]
    · intro answer' hanswer' hrefused
      obtain rfl := Except.ok.inj (hgiven.symm.trans hanswer')
      have herrors := h.judged_errors_ne_nil hrefused
        ((c.script hooks).effects.filterMap Effect.message?)
      exact ⟨herrors, hanswer herrors⟩
    · intro answer' hanswer' haccepted hsilent
      obtain rfl := Except.ok.inj (hgiven.symm.trans hanswer')
      rw [List.filterMap_eq_nil_iff.2 hsilent, h.judged_of_silent haccepted]

/-- With built-in checks, and callbacks that record messages against their own field only, a run that
returns calls the validation callback of a selected field once if there are parameters once they have been
renamed and moved from aliases, and if the field, with the value that the filters and the default give it,
is not required and blank. Otherwise it does not call it. If the callback refuses, the field is left with a
message, and the run answers that there are some. If it accepts and records nothing, the field is left with
the messages, each once, that are expected of its value. -/
theorem validate_callback (hv : Reachable hooks v) (hdirectives : v.directives = .builtin)
    (hown : hooks.OwnField) (h : (v.validate hooks targets).answer = .ok b) :
    ∃ plan run₀,
      Returns (v.resetFields.plan targets) { params := v.params, fields := v.resetFields.fields }
        plan run₀ ∧
      ∀ before name after f hook, plan.selected = before ++ name :: after →
        v.fields.lookup (.str name) = some f → f.validation = .callback hook →
          ∃ r g, Returns (Run.checkFields hooks v.resetFields plan before) run₀ () r ∧
            (v.validate hooks targets).validator.fields.lookup (.str name) = some g ∧
            g.reset = f.reset ∧ g.toggle = (plan.toggles.lookup (.str name)).getD .declared ∧
            f.checkedValue hooks.filter v.filters (r.params.lookup (.str name)) = .ok g.value ∧
            let calls := (v.calls hooks targets).filter (·.name = name)
            let params := if r.params.contains (.str name) then r.params.insert (.str name) g.value
              else r.params
            let errors := Value.unique (({ f with toggle := g.toggle }.expected hooks.search v.directives g.value
              ⟨params, v.fields⟩).map (Report.effective f))
            (run₀.params ≠ [] ∧ ¬(g.isRequired = true ∧ g.value.isBlank = true) →
              ∃ c, calls = [c] ∧ c.hook = hook ∧ c.view.params = params ∧ c.Heeded hooks errors g b) ∧
            (¬(run₀.params ≠ [] ∧ ¬(g.isRequired = true ∧ g.value.isBlank = true)) → calls = []) := by
  have hconsistent := hv.consistent
  obtain ⟨plan, run₀, run, hplan, hturns, -, hfields, -⟩ := validate_ok h
  refine ⟨plan, run₀, hplan, fun before name after f hook hsplit hf hvalidation => ?_⟩
  -- The turn of the field is one of a traced run that starts with the declarations.
  have htraced := returns_calls hplan hturns
  have hnodup := hconsistent.nodup_selected hplan
  rw [hsplit] at htraced hnodup
  obtain ⟨_, _, _, _, hplanned⟩ := plan_eq hplan
  have hnames : ∀ e ∈ v.resetFields.fields, e.2.name = e.1 := hconsistent.named
  have hreset : run₀.fields.lookup (.str name) = some f.reset := by
    rw [hplanned.fields_eq]
    exact lookup_resetFields hf
  obtain ⟨r, x, params, g, new, hbefore, hx, hparams, hconcluded, hg, hcalls⟩ :=
    Traced.checkFields_turn (v := v.resetFields) (s := (run₀, [])) hown
      (hdirectives ▸ DirectiveTable.onlyBuiltin_builtin) hnames hnodup (plan_keeps hplan)
      hreset htraced
  rw [← hfields] at hg
  have hanswer := answer_of_errors hconsistent.named h hg
  -- The end of the turn leaves everything but the messages as the checks have left it.
  have herrors : (turned hooks.search v.resetFields plan f.reset name x params).errors = _ :=
    errors_turned_reset f name x params
  obtain ⟨errors, hsame⟩ := hconcluded.exists_errors
  obtain ⟨hsame', htoggle, hvalue⟩ : g.reset = f.reset ∧
      g.toggle = (plan.toggles.lookup (.str name)).getD .declared ∧ g.value = x := by
    rw [hsame]
    exact ⟨rfl, rfl, rfl⟩
  have hconsults : run₀.params ≠ [] ∧ ¬(g.isRequired = true ∧ x.isBlank = true) ↔
      plan.Consults (turned hooks.search v.resetFields plan f.reset name x params) := by
    rw [← hasParams_iff hplan, hsame]
    rfl
  refine ⟨r.1, g, (Traced.erases_checkFields hooks v.resetFields plan before).returns hbefore, hg,
    hsame', htoggle, hvalue.symm ▸ hx, ?_⟩
  dsimp only
  rw [htoggle, hvalue, ← hparams, ← herrors, hcalls, List.filter_nil, List.nil_append]
  rcases hconcluded.called hvalidation with ⟨hconsulted, c, rfl⟩ | ⟨hnot, rfl⟩
  · refine ⟨fun _ => ?_, fun hnot => absurd (hconsults.2 hconsulted) hnot⟩
    obtain ⟨hhook, hview, hheeded⟩ := heeded_of_concluded hconcluded hanswer
    exact ⟨c, rfl, Value.callback.inj (hhook.symm.trans hvalidation), hview, hheeded⟩
  · exact ⟨fun hconsulted => absurd (hconsults.1 hconsulted) hnot, fun _ => rfl⟩

/-- A program with one validation callback, which records a message and refuses. -/
def refusing : Hooks where
  filter := Hooks.none.filter
  search := Hooks.none.search
  check := Hooks.none.check
  validation _ f _ :=
    { effects := [.recordFor f.name (.str "nick is taken")], answer := .ok (.bool false) }

/-- A field with a message of its own and a validation callback. -/
def screened : Field where
  name := .str "nick"
  directives :=
    [(.str "alias", .str "login"), (.str "max_length", .int 2), (.str "error", .str "Bad nick"),
      (.str "validation", .callback "free"), (.str "filters", .list [])]

/-- A validator for the field, which is supplied by its alias. -/
def screening : Validator where
  options := {}
  directives := .builtin
  filters := .builtin
  children := []
  mixins := []
  aliases := { fields := [(.str "nick", [.str "login"])], aliases := [(.str "login", .str "nick")] }
  warnings := []
  fields := [(.str "nick", screened)]
  params := [(.str "login", .str "abc")]

/-- The validator is created from the directives that its field lists. -/
theorem reachable_screening : Reachable refusing screening :=
  @Reachable.create refusing {} (.dict screening.params)
    { fields := .dict (screening.fields.mapValues fun f => .dict f.directives) } screening
    (by unfold Value.KeysDiffer; decide) (by unfold Value.KeysDiffer; decide) rfl

/-- The callback is called although the value is too long already. What it records is not new to the field,
for the field has its own message in place of all others, but the field is left with that. -/
theorem validate_callback_screening :
    ∃ c g, (screening.calls refusing [.str "nick"]).filter (·.name = "nick") = [c] ∧ c.hook = "free" ∧
      c.field.errors.map Value.text = ["Bad nick"] ∧
      (screening.validate refusing [.str "nick"]).validator.fields.lookup (.str "nick") = some g ∧
      g.errors ≠ [] := by
  have hanswer : (screening.validate refusing [.str "nick"]).answer = .ok false :=
    ok_of_toOption (by decide +kernel)
  have hown : refusing.OwnField := by
    intro hook f view e he
    rw [List.mem_singleton.1 he]
    exact rfl
  obtain ⟨plan, run₀, hplan, hturn⟩ := validate_callback reachable_screening rfl hown hanswer
  have hselected : plan.selected = [] ++ "nick" :: [] :=
    Option.some.inj ((selected?_eq hplan).symm.trans (by decide +kernel))
  obtain ⟨r, g, hbefore, hg, -, htoggle, hvalue, hcalled, -⟩ := hturn _ _ _ screened _ hselected rfl rfl
  obtain ⟨-, rfl⟩ := Returns.pure_iff.1 hbefore
  rw [htoggle] at hcalled
  -- What the checks make of the field is computed for the plan of the run.
  generalize hstart : (screening.resetFields.plan [.str "nick"]).run
    { params := screening.params, fields := screening.resetFields.fields } = start at *
  have hcomputed : (start.1.toOption.bind fun plan =>
      (screened.checkedValue refusing.filter screening.filters
        (start.2.params.lookup (.str "nick"))).toOption.map fun x =>
          (start.2.params.isEmpty, x.isBlank, (Value.unique
            (({ screened with toggle := (plan.toggles.lookup (.str "nick")).getD .declared }.expected
              Hooks.none.search screening.directives x
              ⟨if start.2.params.contains (.str "nick") then start.2.params.insert (.str "nick") x
                else start.2.params, screening.fields⟩).map (Report.effective screened))).map Value.text)) =
      some (false, false, ["Bad nick"]) := by
    rw [← hstart]
    decide +kernel
  have hrun : start = (.ok plan, run₀) := hstart.symm.trans hplan
  rw [hrun] at hcomputed
  dsimp only [Except.toOption, Option.bind_some] at hcomputed
  rw [hvalue] at hcomputed
  obtain ⟨hparams, hrest⟩ := Prod.mk.inj (Option.some.inj hcomputed)
  obtain ⟨hblank, herrors⟩ := Prod.mk.inj hrest
  have hconsulted : run₀.params ≠ [] ∧ ¬(g.isRequired = true ∧ g.value.isBlank = true) := by
    refine ⟨?_, fun hboth => Bool.false_ne_true (hblank.symm.trans hboth.2)⟩
    rintro hnil
    rw [hnil] at hparams
    cases hparams
  obtain ⟨c, hcalls, hhook, -, hheeded⟩ := hcalled hconsulted
  refine ⟨c, g, hcalls, hhook, ?_, hg, ?_⟩
  · rw [hheeded.field_eq]
    exact herrors
  · exact (hheeded.refused (.bool false) rfl rfl).1

end Validator

end ParamCheck
