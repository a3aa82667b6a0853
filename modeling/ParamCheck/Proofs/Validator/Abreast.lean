import ParamCheck.Proofs.Validator.Lockstep
import ParamCheck.Proofs.Validator.Turns

/-!
# Runs that differ in their reports

The report decides nothing in a run without callbacks. Fields that are checked in two states that
differ in nothing but their reports have the same outcome, and the states differ in nothing but their
reports afterwards (`Run.Abreast`, `Run.abreast_checkField`).
-/

namespace ParamCheck

namespace Run

/-- The state of a run without its report. -/
def silent (run : Run) : Run := { run with messages := [] }

/-- Two computations of runs give the same, and leave states that differ in nothing but their
reports. -/
def Abreast {α : Type} (x y : RunM α) (r s : Run) : Prop :=
  (x.run r).1 = (y.run s).1 ∧ (x.run r).2.silent = (y.run s).2.silent

namespace Abreast

variable {α β : Type} {r s : Run}

/-- A value that is given at once. -/
theorem pure (h : r.silent = s.silent) (a : α) : Abreast (Pure.pure a) (Pure.pure a) r s :=
  Lockstep.pure h a

/-- A failure. -/
theorem throw (h : r.silent = s.silent) (e : Fault) :
    Abreast (MonadExcept.throw e : RunM α) (MonadExcept.throw e) r s :=
  Lockstep.throw h e

/-- Two computations in a row. -/
theorem bind {x y : RunM α} {f g : α → RunM β} (hx : Abreast x y r s)
    (hf : ∀ a r' s', Returns x r a r' → r'.silent = s'.silent → Abreast (f a) (g a) r' s') :
    Abreast (x >>= f) (y >>= g) r s :=
  Lockstep.bind (R := fun r s => r.silent = s.silent) hx hf

/-- What follows a look at the states. -/
theorem get_bind {f g : Run → RunM β} (h : Abreast (f r) (g s) r s) :
    Abreast (get >>= f) (get >>= g) r s :=
  Lockstep.get_bind (R := fun r s => r.silent = s.silent) h

/-- A change of the states. -/
theorem modified {f : Run → Run} (h : (f r).silent = (f s).silent) :
    Abreast (modify f : RunM PUnit) (modify f) r s :=
  Lockstep.modified h

end Abreast

variable {r s : Run}

/-- One of two states that differ in nothing but their reports is the other with a report of its
own. -/
theorem exists_messages_of_silent (h : r.silent = s.silent) : ∃ messages, s = { r with messages } :=
  ⟨s.messages, (congrArg (fun u : Run => { u with messages := s.messages }) h).symm⟩

variable {hooks : Hooks} {v : Validator} {plan : Plan}

/-- A message is recorded whatever the report is. -/
theorem abreast_record (h : r.silent = s.silent) (name message : Value) :
    Abreast (record name message) (record name message) r s := by
  obtain ⟨ms, rfl⟩ := exists_messages_of_silent h
  refine Abreast.get_bind ?_
  dsimp only
  cases r.fields.lookup name with
  | none => exact .throw h _
  | some f =>
    dsimp only
    by_cases htext : ∃ text, message = .str text ∧ text ≠ ""
    · -- The message goes to the field, and to the report as well.
      have hrecord : ∀ ms, Report.record f ms message =
          .ok ({ f with errors := Report.add f.errors (Report.effective f message) },
            Report.add ms (Report.effective f message)) :=
        fun ms => Report.record_ok_iff.2 ⟨htext, rfl⟩
      rw [hrecord, hrecord]
      exact ⟨rfl, rfl⟩
    · rw [Report.record_eq_error htext, Report.record_eq_error htext]
      exact ⟨rfl, h⟩

/-- States that differ in nothing but their reports stay so whatever is done to both. -/
theorem concerted_silent : Concerted fun r s => r.silent = s.silent where
  alike {r s} h := by
    have hscene : r.scene = s.scene := (congrArg scene h :)
    exact ⟨congrArg Scene.params hscene, fun k =>
      congrArg (fun scene : Scene => (scene.fields.lookup k).map Field.handle) hscene⟩
  record := abreast_record
  changed {r s} h change hchange := by
    obtain ⟨ms, rfl⟩ := exists_messages_of_silent h
    have hchanged := hchange r r.fields ms
    have hself : (change r).fields = r.fields := (congrArg fields (hchange r r.fields r.messages) :)
    show _ = (change { r with messages := ms }).silent
    rw [hchanged, ← hself]
    rfl

/-- There is no validation callback that sees the report. -/
theorem abreast_checkValidation (h : r.silent = s.silent) {name : Value} {f : Field}
    (hf : r.fields.lookup name = some f) (hcallback : f.validation.isCallback = false) :
    Abreast (checkValidation hooks name) (checkValidation hooks name) r s := by
  have hfields : r.fields = s.fields := (congrArg fields h :)
  refine Abreast.get_bind ?_
  rw [← hfields, hf, Option.getD_some]
  dsimp only
  split
  · exact .pure h ()
  · next hook hhook =>
    rw [hhook] at hcallback
    cases hcallback
  · exact .throw h _

/-- A value is checked whatever the report is. -/
theorem abreast_checkValue (hbuiltin : v.directives.OnlyBuiltin) (h : r.silent = s.silent)
    {name value : Value} {f g : Field} (hg : r.fields.lookup name = some g)
    (hdeclared : g.directives = f.directives) (hcallback : f.validation.isCallback = false) :
    Abreast (checkValue hooks v plan name value f) (checkValue hooks v plan name value f) r s := by
  have hlast : ∀ {r s : Run} {g : Field}, r.silent = s.silent → r.fields.lookup name = some g →
      g.directives = f.directives →
        Abreast (if plan.hasParams then checkValidation hooks name else pure ())
          (if plan.hasParams then checkValidation hooks name else pure ()) r s := by
    intro r s g h hg hdeclared
    have hvalidation : g.validation = f.validation := by
      unfold Field.validation Field.directive
      rw [hdeclared]
    split
    · exact abreast_checkValidation h hg (hvalidation ▸ hcallback)
    · exact .pure h ()
  unfold checkValue
  split
  · exact concerted_silent.complain h name f _
  · dsimp only
    split
    · refine Abreast.bind (concerted_silent.checkDirectives hbuiltin name value f.directives h)
        fun _ r' s' hr h' => ?_
      -- The field is still there after the checks, with its directives.
      rw [checkDirectives_eq hbuiltin f.directives hg hr] at h' ⊢
      exact hlast h' (lookup_withMessages _ _ _ _) hdeclared
    · exact hlast h hg hdeclared

/-- A field is checked whatever the report is. -/
theorem abreast_checkField (hbuiltin : v.directives.OnlyBuiltin) (h : r.silent = s.silent)
    (name : Value) {f : Field} (hcallback : f.validation.isCallback = false) :
    Abreast (checkField hooks v plan name f) (checkField hooks v plan name f) r s := by
  refine Abreast.bind (concerted_silent.takeValue h plan name rfl rfl) fun value r' s' _ h' => ?_
  have hset : ∀ u : Run, Entries.lookup (u.fields.insert name { f with value }) name =
      some { f with value } := by
    intro u
    rw [Entries.lookup_insert, if_pos rfl]
  refine (Abreast.modified ?_).bind fun _ r'' s'' hr'' h'' => ?_
  · obtain ⟨ms, rfl⟩ := exists_messages_of_silent h'
    rfl
  · obtain rfl := Returns.modify_iff.1 hr''
    exact abreast_checkValue (g := { f with value }) hbuiltin h'' (hset r') rfl hcallback

end Run

end ParamCheck
