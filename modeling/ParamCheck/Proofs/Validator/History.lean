import ParamCheck.Profile
import ParamCheck.Proofs.Validator.Construction
import ParamCheck.Proofs.Validator.Upkeep

/-!
# Histories

A validator begins as it is created, or as the child of another one, and then operations change it
(`Validator.NewFrom`, `Validator.Operation`). Whatever the operations are, and whether they fail or
not, they leave what was declared, which is all but the parameters, the state of the fields, the
report and the queue (`Validator.declared_afterAll`).
-/

namespace ParamCheck.Validator

/-- A validator that has just been created from declarations. Its containers may be shared with
another one. -/
def NewFrom (options : Options) (params : Value) (d : Declarations) (v : Validator) : Prop :=
  ∃ w, (create options params d).1 = .ok w ∧ ∃ sharing, v = { w with sharing }

/-- A child begins as a validator that has just been created. -/
theorem newFrom_child {catalogue : Catalogue} {v w : Validator} {name : Value}
    (h : (v.child catalogue name).1 = .ok w) :
    ∃ profile ∈ catalogue, NewFrom v.options (.dict v.params) profile.declarations w := by
  unfold Validator.child at h
  split at h
  · cases h
  · split at h
    · next profile hprofile =>
      obtain ⟨place, -, hplace⟩ := Option.bind_eq_some_iff.1 hprofile
      obtain ⟨built, hbuilt, hlinked⟩ := bind_eq_ok_iff.1 h
      refine ⟨profile, List.mem_of_getElem? hplace, built, hbuilt, ?_⟩
      dsimp only at hlinked
      split at hlinked
      · obtain ⟨sharing, -, hw⟩ := bind_eq_ok_iff.1 hlinked
        exact ⟨sharing, (Except.ok.inj hw).symm⟩
      · exact ⟨{}, (Except.ok.inj hlinked).symm⟩
    · cases h

/-- What can be done with a validator. Every run has callbacks of its own. -/
inductive Operation where
  | validate (hooks : Hooks) (targets : List Value)
  | recordError (name message : Value)
  | enqueue (names : List Value)
  | setParam (name value : Value)
  | setParams (params : Value)
  | setNestedParams (params : Value)
  | nestedParams
  | resetErrors
  | resetFields
  | reset

namespace Operation

/-- The validator after an operation. One that fails may have changed it. -/
def after (v : Validator) : Operation → Validator
  | validate hooks targets => (v.validate hooks targets).validator
  | recordError name message => (v.recordError name message).2
  | enqueue names => v.enqueue names
  | setParam name value => (v.setParam name value).toOption.getD v
  | setParams params => (v.setParams params).toOption.getD v
  | setNestedParams params => (v.setNestedParams params).toOption.getD v
  | nestedParams => v.nestedParams.2
  | resetErrors => v.resetErrors
  | resetFields => v.resetFields
  | reset => v.reset

end Operation

/-- The validator after operations. -/
def afterAll (v : Validator) (ops : List Operation) : Validator := ops.foldl Operation.after v

/-- What no operation changes. -/
def declared (v : Validator) : Validator :=
  { v with
    params := [], fields := v.fields.mapValues Field.reset, messages := [], queue := []
    sharing := {} }

/-- The declarations of fields are what they are found with. -/
theorem lookup_declared (v : Validator) (name : Value) :
    v.declared.fields.lookup name = (v.fields.lookup name).map Field.reset :=
  Entries.lookup_mapValues _ _ _

/-- A validator with the same declarations has been declared alike if nothing else of it has
changed. -/
theorem declared_of_fields {v : Validator} {fields : Entries Field}
    (h : fields.mapValues Field.reset = v.fields.mapValues Field.reset)
    (params : Entries Value) (messages queue : List Value) (sharing : Sharing) :
    { v with fields, params, messages, queue, sharing }.declared = v.declared := by
  unfold declared
  rw [h]

/-- A change of every field's state leaves what was declared. -/
theorem mapValues_reset {g : Field → Field} (hg : ∀ f, (g f).reset = f.reset)
    (fields : Entries Field) :
    (fields.mapValues g).mapValues Field.reset = fields.mapValues Field.reset := by
  rw [Entries.mapValues_mapValues]
  exact congrArg fields.mapValues (funext hg)

/-- Recording a message leaves what was declared. -/
theorem declared_recordError (v : Validator) (name message : Value) :
    (v.recordError name message).2.declared = v.declared := by
  unfold recordError
  split
  · rfl
  · next f hf =>
    split
    · rfl
    · next g messages hrecord =>
      obtain ⟨-, hg⟩ := Report.record_ok_iff.1 hrecord
      obtain ⟨rfl, rfl⟩ := Prod.mk.inj hg
      refine declared_of_fields ?_ _ _ _ _
      -- The field takes on a message, which is no part of its declaration.
      have hdeclared := v.lookup_declared name
      rw [hf] at hdeclared
      rw [Entries.mapValues_insert]
      exact Entries.insert_of_lookup hdeclared

/-- What changes parameters if it succeeds changes nothing but them if it may fail. -/
theorem getD_eq_withParams {v : Validator} {x : Except Fault Validator}
    (h : ∀ w, x = .ok w → ∃ params sharing, w = { v with params, sharing }) :
    ∃ params sharing, x.toOption.getD v = { v with params, sharing } := by
  cases x with
  | error e => exact ⟨v.params, v.sharing, rfl⟩
  | ok w => exact h w rfl

/-- Setting a parameter changes nothing but parameters. -/
theorem after_setParam (v : Validator) (name value : Value) :
    ∃ params sharing, (Operation.setParam name value).after v = { v with params, sharing } := by
  refine getD_eq_withParams fun w hw => ?_
  unfold Validator.setParam at hw
  split at hw
  · exact ⟨_, _, (Except.ok.inj hw).symm⟩
  · cases hw

/-- Replacing the parameters changes nothing but parameters. -/
theorem after_setParams (v : Validator) (data : Value) :
    ∃ params sharing, (Operation.setParams data).after v = { v with params, sharing } := by
  refine getD_eq_withParams fun w hw => ?_
  obtain ⟨flat, -, hflat⟩ := bind_eq_ok_iff.1 hw
  exact ⟨flat, _, (Except.ok.inj hflat).symm⟩

/-- Replacing the parameters by nested ones changes nothing but parameters. -/
theorem after_setNestedParams (v : Validator) (data : Value) :
    ∃ params sharing, (Operation.setNestedParams data).after v = { v with params, sharing } := by
  refine getD_eq_withParams fun w hw => ?_
  obtain ⟨flat, -, hflat⟩ := bind_eq_ok_iff.1 hw
  exact ⟨flat, _, (Except.ok.inj hflat).symm⟩

/-- Fields have the names that they are declared under. -/
def Named (v : Validator) : Prop := ∀ e ∈ v.declared.fields, e.2.name = e.1

/-- A run leaves what was declared. -/
theorem declared_validate {v : Validator} (hv : v.Named) (hooks : Hooks) (targets : List Value) :
    (v.validate hooks targets).validator.declared = v.declared := by
  have hkeeps : Run.Keeps v.resetFields.fields ⟨v.params, v.resetFields.fields, [], [], [], []⟩ :=
    Run.keeps_reset v.fields rfl
  have hrun := runTargets_keeps hv hkeeps hooks v.resetFields targets
  exact declared_of_fields hrun _ _ _ _

/-- An operation leaves what was declared, whether it fails or not. -/
theorem declared_after {v : Validator} (hv : v.Named) (op : Operation) :
    (op.after v).declared = v.declared := by
  cases op with
  | validate hooks targets => exact declared_validate hv hooks targets
  | recordError name message => exact v.declared_recordError name message
  | enqueue names => rfl
  | setParam name value =>
    obtain ⟨params, sharing, hafter⟩ := v.after_setParam name value
    rw [hafter]
    rfl
  | setParams data =>
    obtain ⟨params, sharing, hafter⟩ := v.after_setParams data
    rw [hafter]
    rfl
  | setNestedParams data =>
    obtain ⟨params, sharing, hafter⟩ := v.after_setNestedParams data
    rw [hafter]
    rfl
  | nestedParams =>
    -- The containers that are built take the place of values only.
    refine declared_of_fields ?_ _ _ _ _
    show List.map _ (List.map _ v.fields) = List.map _ v.fields
    rw [List.map_map]
    rfl
  | resetErrors =>
    exact declared_of_fields (mapValues_reset (g := Report.clear) (fun _ => rfl) v.fields) _ _ _ _
  | resetFields =>
    exact declared_of_fields (mapValues_reset (g := Field.reset) (fun _ => rfl) v.fields) _ _ _ _
  | reset =>
    exact declared_of_fields (mapValues_reset (g := Field.reset) (fun _ => rfl) v.fields) _ _ _ _

/-- An operation leaves the names. -/
theorem Named.after {v : Validator} (hv : v.Named) (op : Operation) : (op.after v).Named := by
  unfold Named
  rw [declared_after hv op]
  exact hv

/-- Operations leave what was declared, whether they fail or not. -/
theorem declared_afterAll (ops : List Operation) :
    ∀ {v : Validator}, v.Named → (v.afterAll ops).declared = v.declared := by
  induction ops with
  | nil => exact fun _ => rfl
  | cons op rest ih => exact fun hv => (ih (hv.after op)).trans (declared_after hv op)

/-- Operations leave the names. -/
theorem Named.afterAll {v : Validator} (hv : v.Named) (ops : List Operation) :
    (v.afterAll ops).Named := by
  unfold Named
  rw [declared_afterAll ops hv]
  exact hv

/-- Nothing has been found out about the fields of a validator that has just been created. -/
theorem NewFrom.fields {options : Options} {params : Value} {d : Declarations} {v : Validator}
    (h : NewFrom options params d v) :
    v.options = options ∧ v.messages = [] ∧ ∀ e ∈ v.fields, e.2.name = e.1 ∧ e.2.errors = [] := by
  obtain ⟨w, hw, sharing, rfl⟩ := h
  have hbuild : Returns (build options params d) {} w _ := Prod.ext hw rfl
  obtain ⟨hoptions, -, hmessages, -, resolved, hfields⟩ := build_returns hbuild
  refine ⟨hoptions, hmessages, fun e he => ?_⟩
  change e ∈ w.fields at he
  rw [hfields] at he
  rw [(mem_fieldsOf he).2]
  exact ⟨rfl, rfl⟩

/-- The fields of a validator that has just been created have the names that they are declared
under. -/
theorem NewFrom.named {options : Options} {params : Value} {d : Declarations} {v : Validator}
    (h : NewFrom options params d v) : v.Named := by
  intro e he
  obtain ⟨e', he', rfl⟩ := List.mem_map.1 he
  exact (h.fields.2.2 e' he').1

end ParamCheck.Validator
