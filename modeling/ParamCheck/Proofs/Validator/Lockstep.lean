import ParamCheck.Proofs.Validator.Upkeep

/-!
# Runs in lockstep

Two computations of runs go in lockstep if they give the same, a value or a fault, and leave their states
related (`Run.Lockstep`). Computations that are put together of such ones go in lockstep, too. If related
states are alike for built-in checks, and recording a message and other changes keep them related
(`Run.Concerted`), then scripts, built-in checks, the filters of a field and plans go in lockstep.
-/

namespace ParamCheck.Run

/-- Two computations of runs give the same, and leave states that are related. -/
def Lockstep {α : Type} (R : Run → Run → Prop) (x y : RunM α) (r s : Run) : Prop :=
  (x.run r).1 = (y.run s).1 ∧ R (x.run r).2 (y.run s).2

namespace Lockstep

variable {α β : Type} {R : Run → Run → Prop} {r s : Run}

/-- A value that is given at once. -/
theorem pure (h : R r s) (a : α) : Lockstep R (Pure.pure a) (Pure.pure a) r s := ⟨rfl, h⟩

/-- A failure. -/
theorem throw (h : R r s) (e : Fault) :
    Lockstep R (MonadExcept.throw e : RunM α) (MonadExcept.throw e) r s := ⟨rfl, h⟩

/-- A computation without state. -/
theorem lift (h : R r s) (x : Except Fault α) : Lockstep R (liftM x : RunM α) (liftM x) r s := by
  cases x <;> exact ⟨rfl, h⟩

/-- Two computations in a row. -/
theorem bind {x y : RunM α} {f g : α → RunM β} (hx : Lockstep R x y r s)
    (hf : ∀ a r' s', Returns x r a r' → R r' s' → Lockstep R (f a) (g a) r' s') :
    Lockstep R (x >>= f) (y >>= g) r s := by
  unfold Lockstep at hx ⊢
  rw [run_bind, run_bind]
  rcases hr : x.run r with ⟨a, r'⟩
  rcases hs : y.run s with ⟨b, s'⟩
  rw [hr, hs] at hx
  obtain ⟨rfl, hstate⟩ : a = b ∧ R r' s' := hx
  cases a with
  | ok a => exact hf a r' s' hr hstate
  | error e => exact ⟨rfl, hstate⟩

/-- What follows a look at the states. -/
theorem get_bind {f g : Run → RunM β} (h : Lockstep R (f r) (g s) r s) :
    Lockstep R (get >>= f) (get >>= g) r s := by
  have hget : ∀ t : Run, Returns (get : RunM Run) t t t := fun t => Returns.get_iff.2 ⟨rfl, rfl⟩
  unfold Lockstep at h ⊢
  rw [(hget r).run_bind, (hget s).run_bind]
  exact h

/-- A change of the states. -/
theorem modified {f g : Run → Run} (h : R (f r) (g s)) :
    Lockstep R (modify f : RunM PUnit) (modify g) r s := ⟨rfl, h⟩

/-- Computations without state, one after the other. -/
theorem mapM_lift (f : α → Except Fault β) (as : List α) :
    ∀ {r s : Run}, R r s →
      Lockstep R (as.mapM fun a => (liftM (f a) : RunM β)) (as.mapM fun a => liftM (f a)) r s := by
  induction as with
  | nil => exact fun h => .pure h []
  | cons a rest ih =>
    intro r s h
    rw [List.mapM_cons]
    exact (lift h (f a)).bind fun _ _ _ _ h' => (ih h').bind fun _ _ _ _ h'' => .pure h'' _

end Lockstep

/-- States that are related are alike for built-in checks. They stay related when a message is recorded, and
when anything beside the fields and the report changes. -/
structure Concerted (R : Run → Run → Prop) : Prop where
  alike : ∀ {r s : Run}, R r s → r.scene.Alike s.scene
  record : ∀ {r s : Run}, R r s → ∀ name message : Value,
    Lockstep R (record name message) (record name message) r s
  changed : ∀ {r s : Run}, R r s → ∀ change : Run → Run,
    (∀ u fields messages, change { u with fields, messages } = { change u with fields, messages }) →
      R (change r) (change s)

namespace Concerted

variable {R : Run → Run → Prop} {r s : Run} (hR : Concerted R)

include hR

/-- A complaint is made in related states. -/
theorem complain (h : R r s) (name : Value) (f : Field) (words : String) :
    Lockstep R (complain name f words) (complain name f words) r s :=
  (Lockstep.lift h f.handle.write).bind fun _ _ _ _ h' => hR.record h' name _

/-- Effects are carried out in related states. -/
theorem perform (name : Value) (effects : List Effect) :
    ∀ {r s : Run}, R r s → Lockstep R (perform name effects) (perform name effects) r s := by
  induction effects with
  | nil => exact fun h => .pure h ()
  | cons e rest ih =>
    intro r s h
    have hparams : ∀ change : Entries Value → Entries Value,
        Lockstep R (do modify fun run => { run with params := change run.params }; Run.perform name rest)
          (do modify fun run => { run with params := change run.params }; Run.perform name rest) r s := by
      intro change
      exact (Lockstep.modified (hR.changed h _ fun _ _ _ => rfl)).bind fun _ _ _ _ h' => ih h'
    cases e with
    | record message => exact (hR.record h name message).bind fun _ _ _ _ h' => ih h'
    | recordFor field message => exact (hR.record h field message).bind fun _ _ _ _ h' => ih h'
    | setParam key v => exact hparams (·.insert key v)
    | dropParam key => exact hparams (·.erase key)

/-- A script is carried out in related states. -/
theorem play (h : R r s) (name : Value) (script : Script) :
    Lockstep R (play name script) (play name script) r s :=
  (hR.perform name script.effects h).bind fun _ _ _ _ h' => .lift h' _

/-- The same is planned in related states. -/
theorem plan (h : R r s) (v : Validator) (targets : List Value) :
    Lockstep R (v.plan targets) (v.plan targets) r s := by
  have hparams : r.params = s.params := (hR.alike h).params
  unfold Validator.plan
  refine Lockstep.get_bind ?_
  rw [hparams]
  refine (Lockstep.lift h _).bind fun request r₁ s₁ _ h₁ => ?_
  refine (Lockstep.mapM_lift Toggle.ofValue _ h₁).bind fun parsed r₂ s₂ _ h₂ => ?_
  refine (Lockstep.modified (hR.changed h₂ _ fun _ _ _ => rfl)).bind fun _ r₃ s₃ _ h₃ => ?_
  refine (Lockstep.lift h₃ _).bind fun selected r₄ s₄ _ h₄ => ?_
  exact (Lockstep.modified (hR.changed h₄ _ fun _ _ _ => rfl)).bind fun _ r₅ s₅ _ h₅ => .pure h₅ _

variable {hooks : Hooks} {v : Validator}

/-- Built-in checks are made in related states. -/
theorem checkDirectives (hbuiltin : v.directives.OnlyBuiltin) (name value : Value)
    (ds : List (Value × Value)) :
    ∀ {r s : Run}, R r s →
      Lockstep R (checkDirectives hooks v name value ds) (checkDirectives hooks v name value ds) r s := by
  induction ds with
  | nil => exact fun h => .pure h ()
  | cons d rest ih =>
    intro r s h
    obtain ⟨directive, argument⟩ := d
    unfold Run.checkDirectives
    cases hcheck : v.directives.check? directive with
    | none => exact ih h
    | some check =>
      obtain ⟨c, rfl⟩ := hbuiltin directive check hcheck
      -- A built-in check sees nothing of its field but the handle.
      have hhandle : ((r.fields.lookup name).getD default).handle =
          ((s.fields.lookup name).getD default).handle := by
        have hget : ∀ o : Option Field, (o.getD default).handle =
            (o.map Field.handle).getD (default : Field).handle := by
          intro o
          cases o <;> rfl
        rw [hget, hget]
        exact congrArg (Option.getD · _) ((hR.alike h).handles name)
      have hscript : c.script hooks.search argument value ((r.fields.lookup name).getD default) r.scene =
          c.script hooks.search argument value ((s.fields.lookup name).getD default) s.scene :=
        c.script_congr hooks.search argument value hhandle (hR.alike h)
      refine Lockstep.get_bind
        ((?_ : Lockstep R (Run.play name _) (Run.play name _) r s).bind fun _ _ _ _ h' => ih h')
      show Lockstep R (Run.play name (c.script _ _ _ _ r.scene))
        (Run.play name (c.script _ _ _ _ s.scene)) r s
      rw [hscript]
      exact hR.play h name _

/-- The value of a field is taken into related states, and another field with the same filters and the same
default does as well. -/
theorem takeValue (h : R r s) (plan : Plan) (name : Value) {f g : Field} (hfilters : f.filters = g.filters)
    (hdefault : f.default = g.default) :
    Lockstep R (takeValue hooks v plan name f) (takeValue hooks v plan name g) r s := by
  have hparams : r.params = s.params := (hR.alike h).params
  have hsupplied : ∀ p, f.supplied hooks.filter v.filters p = g.supplied hooks.filter v.filters p := by
    intro p
    have hcompleted : f.completed p = g.completed p := by
      funext filtered
      unfold Field.completed
      rw [hdefault]
    unfold Field.supplied Field.filtered?
    rw [hfilters, hcompleted]
  refine Lockstep.get_bind ?_
  rw [hparams]
  cases s.params.lookup name with
  | none =>
    rw [hdefault]
    exact .pure h _
  | some p =>
    dsimp only [supply]
    rw [hsupplied]
    refine (Lockstep.lift h _).bind fun x r' s' _ h' => ?_
    have hsupply : R (r'.withSupplied plan name x) (s'.withSupplied plan name x) :=
      hR.changed h' (fun u => u.withSupplied plan name x)
        fun u fields messages => withSupplied_update plan u fields messages name x
    exact (Lockstep.modified hsupply).bind fun _ _ _ _ h'' => .pure h'' _

end Concerted

end ParamCheck.Run
