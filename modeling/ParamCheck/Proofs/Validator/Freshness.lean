import ParamCheck.Proofs.Validator.Congruence
import ParamCheck.Proofs.Validator.History

/-!
# Used validators

A run starts from the state of fields that have been reset and from an empty report, and operations
leave what was declared. So a validator that has been used runs as a new one does that has its
parameters and its queue (`Validator.validate_afterAll`). What containers are shared makes no
difference to a run, other than to what is shared after it (`Validator.runTargets_sharing`).
-/

namespace ParamCheck

namespace Validator

/-- A run does not go by what is shared. -/
theorem runTargets_sharing (hooks : Hooks) (v : Validator) (sharing : Sharing)
    (targets : List Value) :
    runTargets hooks { v with sharing } targets = runTargets hooks v targets := by
  have hturns : ∀ plan names, Run.checkFields hooks { v with sharing } plan names =
      Run.checkFields hooks v plan names :=
    fun plan => Run.checkFields_congr hooks ⟨rfl, rfl, rfl⟩ (.refl plan)
  unfold runTargets
  simp only [hturns]
  rfl

/-- Validators that were declared alike and have the same parameters and the same queue run alike,
up to what is shared. -/
theorem validate_congr {v w : Validator} (h : v.declared = w.declared) (hparams : v.params = w.params)
    (hqueue : v.queue = w.queue) (hooks : Hooks) (targets : List Value) :
    (v.validate hooks targets).answer = (w.validate hooks targets).answer ∧
      ∃ sharing, (v.validate hooks targets).validator =
        { (w.validate hooks targets).validator with sharing } := by
  -- At the start of the run the two differ in nothing but in what is shared.
  obtain ⟨sharing, hstart⟩ : ∃ sharing, v.resetFields = { w.resetFields with sharing } := by
    refine ⟨v.resetFields.sharing, ?_⟩
    have hv : v.resetFields = { v.declared with
        params := v.params, queue := v.queue, sharing := v.resetFields.sharing } := rfl
    rw [hv, h, hparams, hqueue]
    rfl
  unfold validate
  rw [hstart]
  dsimp only
  rw [runTargets_sharing]
  exact ⟨rfl, _, rfl⟩

/-- What declarations are resolved to does not depend on the parameters. -/
theorem create_params {options : Options} {params : Value} {d : Declarations} {v : Validator}
    (h : (create options params d).1 = .ok v) :
    (create options (.dict []) d).1 = .ok { v with params := [] } := by
  have hbuild : Returns (build options params d) {} v _ := Prod.ext h rfl
  obtain ⟨j, hnew⟩ : ∃ j, Returns (build options (.dict []) d) {} { v with params := [] } j := by
    rw [build] at hbuild ⊢
    simp only [Returns.bind_iff, Returns.pure_iff, Returns.liftM_iff, Returns.get_iff] at hbuild ⊢
    obtain ⟨flat, _, ⟨-, rfl⟩, r, u, hresolve, _, w, hfilters, aliases, _, ⟨haliases, rfl⟩,
      journal, _, ⟨rfl, rfl⟩, rfl, hj⟩ := hbuild
    exact ⟨_, [], _, ⟨rfl, rfl⟩, r, u, hresolve, _, w, hfilters, aliases, _, ⟨haliases, rfl⟩,
      _, _, ⟨rfl, rfl⟩, rfl, hj⟩
  exact congrArg Prod.fst hnew

/-- A validator that has been used runs as a new one does that has its parameters and its queue: the
answer is the same, and so is the validator afterwards, up to what is shared. -/
theorem validate_afterAll {options : Options} {params : Value} {d : Declarations} {v : Validator}
    (hv : NewFrom options params d v) (ops : List Operation) (hooks : Hooks)
    (targets : List Value) :
    ∃ new, (create options (.dict []) d).1 = .ok new ∧
      let used := v.afterAll ops
      let ready := { new with params := used.params, queue := used.queue }
      (used.validate hooks targets).answer = (ready.validate hooks targets).answer ∧
        ∃ sharing, (used.validate hooks targets).validator =
          { (ready.validate hooks targets).validator with sharing } := by
  obtain ⟨w, hw, sharing, rfl⟩ := id hv
  refine ⟨_, create_params hw, ?_⟩
  intro used ready
  have hdeclared : used.declared = ready.declared := declared_afterAll ops hv.named
  exact validate_congr hdeclared rfl rfl hooks targets

/-- A validator for a field that may be missing. -/
def nickname : Validator where
  options := {}
  directives := .builtin
  filters := .builtin
  children := []
  mixins := []
  aliases := {}
  warnings := []
  fields := [(.str "nick",
    { name := .str "nick"
      directives := [(.str "min_length", .int 3), (.str "filters", .list [])] })]

/-- The validator is created from the directives of its field. -/
theorem newFrom_nickname : NewFrom {} .null
    { fields := .dict (nickname.fields.mapValues fun f => .dict f.directives) } nickname :=
  ⟨nickname, rfl, {}, rfl⟩

/-- The validator after some use: the field was required once, and it has a message, a parameter and a
place in the queue. -/
def nicknamed : Validator :=
  nickname.afterAll [.validate .none [.str "+nick"], .recordError (.str "nick") (.str "Taken"),
    .setParam (.str "nick") (.str "ab"), .enqueue [.str "nick"]]

/-- The next run is that of a new validator with the parameter and the queue: the nickname is too
short, and that is all. -/
theorem validate_afterAll_nickname :
    nicknamed.messages.map Value.text = ["nick is required", "Taken"] ∧
      nicknamed.params.map (fun e => (e.1.text, e.2.text)) = [("nick", "ab")] ∧
      nicknamed.queue.map Value.text = ["nick"] ∧
      (nicknamed.validate .none []).validator.messages.map Value.text =
        ["nick must contain 3 or more characters"] ∧
      ∃ new : Validator, (create {} (.dict [])
          { fields := .dict (nickname.fields.mapValues fun f => .dict f.directives) }).1 = .ok new ∧
        ({ new with params := nicknamed.params, queue := nicknamed.queue }.validate .none []).answer =
          .ok false := by
  refine ⟨by decide +kernel, by decide +kernel, by decide +kernel, by decide +kernel, ?_⟩
  obtain ⟨new, hnew, hanswer, -⟩ := validate_afterAll newFrom_nickname
    [.validate .none [.str "+nick"], .recordError (.str "nick") (.str "Taken"),
      .setParam (.str "nick") (.str "ab"), .enqueue [.str "nick"]] .none []
  have hused : (nicknamed.validate .none []).answer = .ok false :=
    ok_of_toOption (by decide +kernel)
  exact ⟨new, hnew, hanswer.symm.trans hused⟩

end Validator

end ParamCheck
