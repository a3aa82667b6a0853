import ParamCheck.Proofs.Validator.History
import ParamCheck.Proofs.Validator.Plan

/-!
# The report and the messages of fields

A message is kept in the report and with the field that it is about. Throughout the life of a
validator neither holds a message twice, every message of a field is in the report, and every message
in the report is that of a field, unless the latest run has reported an undeclared name by it
(`Balanced`, `Validator.balanced_afterAll`).
-/

namespace ParamCheck

/-- The report agrees with the messages of each field, but for messages that are stray. -/
structure Balanced (stray : Value → Prop) (errors : Entries (List Value)) (messages : List Value) :
    Prop where
  once : Report.Unrepeated messages
  once_field : ∀ e ∈ errors, Report.Unrepeated e.2
  reported : ∀ e ∈ errors, ∀ m ∈ e.2, messages.any m.same = true
  owned : ∀ m ∈ messages, (∃ e ∈ errors, e.2.any m.same = true) ∨ stray m

namespace Balanced

variable {stray : Value → Prop} {errors : Entries (List Value)} {messages : List Value}

/-- An empty report agrees with fields without messages. -/
theorem empty (h : ∀ e ∈ errors, e.2 = []) : Balanced stray errors [] where
  once := List.Pairwise.nil
  once_field e he := by
    rw [h e he]
    exact List.Pairwise.nil
  reported e he m hm := by
    rw [h e he] at hm
    cases hm
  owned m hm := by cases hm

/-- A message that is in a list is in the list after another one is added. -/
theorem any_add_of_any {ms : List Value} {m : Value} (h : ms.any m.same = true) (message : Value) :
    (Report.add ms message).any m.same = true := by
  obtain ⟨w, hw, hsame⟩ := List.any_eq_true.1 h
  exact List.any_eq_true.2 ⟨w, Report.mem_add_of_mem hw message, hsame⟩

/-- A message is recorded with a field and in the report. -/
theorem recorded (h : Balanced stray errors messages) {name : Value} {ms : List Value}
    (hname : errors.lookup name = some ms) (m : Value) :
    Balanced stray (errors.insert name (Report.add ms m)) (Report.add messages m) := by
  obtain ⟨l, hl, -⟩ := Entries.exists_mem_of_lookup hname
  refine ⟨h.once.add m, fun e he => ?_, fun e he x hx => ?_, fun x hx => ?_⟩
  · rcases Entries.mem_insert he with he | ⟨-, he⟩
    · exact h.once_field e he
    · rw [he]
      exact (h.once_field _ hl).add m
  · rcases Entries.mem_insert he with he | ⟨-, he⟩
    · exact any_add_of_any (h.reported e he x hx) m
    · rw [he] at hx
      rcases Report.mem_add hx with hx | rfl
      · exact any_add_of_any (h.reported _ hl x hx) m
      · exact Report.any_add messages x
  · rcases Report.mem_add hx with hx | rfl
    · refine (h.owned x hx).imp_left fun ⟨e, he, hany⟩ => ?_
      -- The field that owns a message still does, also if it is the one that gets another.
      rcases Entries.mem_insert_of_mem hname (Report.add ms m) he with hmem | ⟨hms, hmem⟩
      · exact ⟨e, hmem, hany⟩
      · rw [hms] at hany
        exact ⟨_, hmem, any_add_of_any hany m⟩
    · have hnew : (errors.insert name (Report.add ms x)).lookup name = some (Report.add ms x) := by
        rw [Entries.lookup_insert, if_pos rfl]
      obtain ⟨k, hk, -⟩ := Entries.exists_mem_of_lookup hnew
      exact .inl ⟨_, hk, Report.any_add ms x⟩

/-- A stray message is reported. -/
theorem passed (h : Balanced stray errors messages) {m : Value} (hm : stray m) :
    Balanced stray errors (Report.add messages m) where
  once := h.once.add m
  once_field := h.once_field
  reported e he x hx := any_add_of_any (h.reported e he x hx) m
  owned x hx := by
    rcases Report.mem_add hx with hx | rfl
    · exact h.owned x hx
    · exact .inr hm

/-- Without stray messages the report is empty when the fields have no messages. -/
theorem messages_eq_nil_iff (h : Balanced stray errors messages) (hstray : ∀ m, ¬stray m) :
    messages = [] ↔ ∀ e ∈ errors, e.2 = [] := by
  constructor
  · intro hnil e he
    refine List.eq_nil_iff_forall_not_mem.2 fun m hm => ?_
    have hreported := h.reported e he m hm
    rw [hnil] at hreported
    cases hreported
  · intro hnone
    refine List.eq_nil_iff_forall_not_mem.2 fun m hm => ?_
    rcases h.owned m hm with ⟨e, he, hany⟩ | hm
    · rw [hnone e he] at hany
      cases hany
    · exact hstray m hm

end Balanced

/-- The messages by field are none when no field has any. -/
theorem Report.byField_eq_nil_iff {fields : List Field} :
    byField fields = [] ↔ ∀ f ∈ fields, f.errors = [] := by
  have hinsert : ∀ {d : Entries Value} {k v : Value}, d.insert k v ≠ [] := by
    intro d k v hnil
    have hfound := Entries.lookup_insert d k k v
    rw [hnil, if_pos rfl] at hfound
    cases hfound
  have hfold : ∀ (fields : List Field) (d : Entries Value),
      fields.foldl (fun d f => if f.errors.isEmpty then d else d.insert f.name (.list f.errors)) d = []
        ↔ d = [] ∧ ∀ f ∈ fields, f.errors = [] := by
    intro fields
    induction fields with
    | nil => simp
    | cons f rest ih =>
      intro d
      rw [List.foldl_cons, ih, List.forall_mem_cons]
      by_cases hf : f.errors = []
      · simp [hf]
      · simp [hf, hinsert]
  rw [byField, hfold]
  exact and_iff_right rfl

/-! ## Runs -/

/-- The report of a run agrees with the messages of each field, which have the given declarations. -/
def Run.Agrees (declared : Entries Field) (stray : Value → Prop) (run : Run) : Prop :=
  run.Keeps declared ∧ Balanced stray (run.fields.mapValues Field.errors) run.messages

/-- That the report and the fields agree outlasts the turns of names, if the reports of undeclared
names among them are stray messages. -/
theorem Run.invariant_agrees {v : Validator} {declared : Entries Field} {names : List String}
    {stray : Value → Prop}
    (hstray : ∀ name ∈ names, declared.lookup (.str name) = none →
      v.options.policy.ignoreUnknown = true → v.options.policy.reportUnknown = true →
        stray (.str (Fault.unknownField (.str name)).message)) :
    Run.Invariant v declared names (Run.Agrees declared stray) where
  keeps h := h.1
  congr h hfields hmessages := by
    refine ⟨(Run.invariant_keeps v declared names).congr h.1 hfields hmessages, ?_⟩
    rw [hfields, hmessages]
    exact h.2
  recorded {run name f} h hf m := by
    refine ⟨(Run.invariant_keeps v declared names).recorded h.1 hf m, ?_⟩
    have herrors : (run.fields.mapValues Field.errors).lookup name = some f.errors := by
      rw [Entries.lookup_mapValues, hf]
      rfl
    rw [Entries.mapValues_insert]
    exact h.2.recorded herrors m
  updated {run name f g} h hf hreset herrors := by
    refine ⟨(Run.invariant_keeps v declared names).updated h.1 hf hreset herrors, ?_⟩
    have hsame : (run.fields.mapValues Field.errors).lookup name = some g.errors := by
      rw [Entries.lookup_mapValues, hf, herrors]
      rfl
    rw [Entries.mapValues_insert, Entries.insert_of_lookup hsame]
    exact h.2
  passed {run name} h hname hf hignore hreport := by
    refine ⟨h.1, h.2.passed (hstray name hname ?_ hignore hreport)⟩
    rw [← h.1, Entries.lookup_mapValues, hf]
    rfl

namespace Validator

/-- The message reports one of the selected names as undeclared. -/
def Stray (v : Validator) (selected : List String) (m : Value) : Prop :=
  v.options.policy.ignoreUnknown = true ∧ v.options.policy.reportUnknown = true ∧
    ∃ name ∈ selected, v.fields.lookup (.str name) = none ∧
      m = .str (Fault.unknownField (.str name)).message

/-- Which messages are stray depends on what was declared. -/
theorem stray_congr {v w : Validator} (h : w.declared = v.declared) (selected : List String) :
    w.Stray selected = v.Stray selected := by
  have hoptions : w.declared.options = v.declared.options := by rw [h]
  change w.options = v.options at hoptions
  have hnone : ∀ name : Value, w.fields.lookup name = none ↔ v.fields.lookup name = none := by
    intro name
    rw [← Option.map_eq_none_iff (f := Field.reset), ← lookup_declared, h, lookup_declared,
      Option.map_eq_none_iff]
  funext m
  unfold Stray
  simp only [hoptions, hnone]

/-- The names that the latest run has selected after an operation. -/
def Operation.selected (v : Validator) (latest : List String) : Operation → List String
  | validate _ targets => (v.selected? targets).getD []
  | _ => latest

/-- The names that the latest run has selected after operations. -/
def selectedAfter : List Operation → Validator → List String → List String
  | [], _, latest => latest
  | op :: rest, v, latest => selectedAfter rest (op.after v) (op.selected v latest)

/-- The messages of each field. -/
abbrev fieldErrors (v : Validator) : Entries (List Value) := v.fields.mapValues Field.errors

/-- Fields whose messages have been cleared agree with an empty report. -/
theorem balanced_mapValues {stray : Value → Prop} {g : Field → Field}
    (hg : ∀ f, (g f).errors = []) (fields : Entries Field) :
    Balanced stray ((fields.mapValues g).mapValues Field.errors) [] := by
  refine Balanced.empty fun e he => ?_
  rw [Entries.mapValues_mapValues] at he
  obtain ⟨e', -, rfl⟩ := List.mem_map.1 he
  exact hg e'.2

/-- After a run the report agrees with the messages of each field, whether it failed or not, but for
the reports of undeclared names that it selected. -/
theorem balanced_validate {v : Validator} (hv : v.Named) (hooks : Hooks) (targets : List Value) :
    Balanced (v.Stray ((v.selected? targets).getD []))
      (v.validate hooks targets).validator.fieldErrors
      (v.validate hooks targets).validator.messages := by
  generalize hstray : v.Stray ((v.selected? targets).getD []) = stray
  have hstart : Run.Agrees v.resetFields.fields stray
      ⟨v.params, v.resetFields.fields, [], [], [], []⟩ :=
    ⟨Run.keeps_reset v.fields rfl, balanced_mapValues (fun _ => rfl) v.fields⟩
  have hnone : Run.Invariant v.resetFields v.resetFields.fields []
      (Run.Agrees v.resetFields.fields stray) := Run.invariant_agrees nofun
  have hrun : Leaves (runTargets hooks v.resetFields targets)
      { params := v.params, fields := v.resetFields.fields }
      (Run.Agrees v.resetFields.fields stray) := by
    refine Leaves.bind (plan_leaves (fun hu _ _ => hnone.congr hu rfl rfl) hstart v.resetFields
      targets) fun plan run₀ hplan hrun₀ => ?_
    -- The undeclared names that the plan has selected are stray.
    have hselected := selected?_eq hplan
    refine (Run.invariant_agrees ?_).checkFields hv (fun _ hname => hname) hrun₀
    intro name hname hdeclared hignore hreport
    rw [← hstray, hselected]
    refine ⟨hignore, hreport, name, hname, ?_, rfl⟩
    rw [← Option.map_eq_none_iff (f := Field.reset), ← lookup_declared]
    exact hdeclared
  exact hrun.2

/-- Recording a message leaves a report that agrees with the messages of each field. -/
theorem balanced_recordError {v : Validator} {stray : Value → Prop}
    (h : Balanced stray v.fieldErrors v.messages) (name message : Value) :
    Balanced stray (v.recordError name message).2.fieldErrors
      (v.recordError name message).2.messages := by
  unfold recordError
  split
  · exact h
  · next f hf =>
    split
    · exact h
    · next g messages hrecord =>
      obtain ⟨-, hg⟩ := Report.record_ok_iff.1 hrecord
      obtain ⟨rfl, rfl⟩ := Prod.mk.inj hg
      have herrors : v.fieldErrors.lookup name = some f.errors := by
        rw [Entries.lookup_mapValues, hf]
        rfl
      show Balanced stray (Entries.mapValues _ (v.fields.insert name _)) _
      rw [Entries.mapValues_insert]
      exact h.recorded herrors _

/-- An operation leaves a report that agrees with the messages of each field, whether it fails or
not. -/
theorem balanced_after {v : Validator} (hv : v.Named) {latest : List String}
    (h : Balanced (v.Stray latest) v.fieldErrors v.messages) (op : Operation) :
    Balanced ((op.after v).Stray (op.selected v latest)) (op.after v).fieldErrors
      (op.after v).messages := by
  rw [stray_congr (declared_after hv op)]
  cases op with
  | validate hooks targets => exact balanced_validate hv hooks targets
  | recordError name message => exact balanced_recordError h name message
  | enqueue names => exact h
  | setParam name value =>
    obtain ⟨params, sharing, hafter⟩ := v.after_setParam name value
    rw [hafter]
    exact h
  | setParams data =>
    obtain ⟨params, sharing, hafter⟩ := v.after_setParams data
    rw [hafter]
    exact h
  | setNestedParams data =>
    obtain ⟨params, sharing, hafter⟩ := v.after_setNestedParams data
    rw [hafter]
    exact h
  | nestedParams =>
    -- The containers that are built take the place of values only.
    have herrors : v.nestedParams.2.fieldErrors = v.fieldErrors := by
      show List.map _ (List.map _ v.fields) = List.map _ v.fields
      rw [List.map_map]
      rfl
    show Balanced _ v.nestedParams.2.fieldErrors v.messages
    rw [herrors]
    exact h
  | resetErrors => exact balanced_mapValues (fun _ => rfl) v.fields
  | resetFields => exact balanced_mapValues (fun _ => rfl) v.fields
  | reset => exact balanced_mapValues (fun _ => rfl) v.fields

/-- Whether they fail or not, operations leave a report that agrees with the messages of each field. -/
theorem balanced_foldl (ops : List Operation) :
    ∀ {v : Validator} {latest : List String}, v.Named →
      Balanced (v.Stray latest) v.fieldErrors v.messages →
        Balanced ((v.afterAll ops).Stray (selectedAfter ops v latest)) (v.afterAll ops).fieldErrors
          (v.afterAll ops).messages := by
  induction ops with
  | nil => exact fun _ h => h
  | cons op rest ih => exact fun hv h => ih (hv.after op) (balanced_after hv h op)

/-- If no message is stray, there are no messages when no field has any. -/
theorem errorCount_eq_zero_iff {v : Validator} {stray : Value → Prop}
    (h : Balanced stray v.fieldErrors v.messages) (hstray : ∀ m, ¬stray m) :
    v.errorCount = 0 ↔ v.errorFields = [] := by
  unfold errorCount errorFields
  rw [List.length_eq_zero_iff, h.messages_eq_nil_iff hstray, Report.byField_eq_nil_iff,
    List.forall_mem_map]
  exact List.forall_mem_map

/-- A run that returns says whether the report is empty. -/
theorem answer_iff {hooks : Hooks} {v : Validator} {targets : List Value} {b : Bool}
    (h : (v.validate hooks targets).answer = .ok b) :
    b = true ↔ (v.validate hooks targets).validator.errorCount = 0 := by
  unfold validate at h
  obtain ⟨-, -, hb⟩ := map_eq_ok_iff.1 h
  rw [← hb, List.isEmpty_iff]
  exact List.length_eq_zero_iff.symm

/-- Throughout the life of a validator its report agrees with the messages of each field, but for the
reports of undeclared names that the latest run selected. If the policy does not ask for these, there
are no messages when no field has any, and a run that returns says whether that is so. -/
theorem balanced_afterAll {options : Options} {params : Value} {d : Declarations} {v : Validator}
    (hv : NewFrom options params d v) (ops : List Operation) :
    Balanced ((v.afterAll ops).Stray (selectedAfter ops v [])) (v.afterAll ops).fieldErrors
        (v.afterAll ops).messages ∧
      (options.policy.reportUnknown = false →
        ((v.afterAll ops).errorCount = 0 ↔ (v.afterAll ops).errorFields = []) ∧
        ∀ hooks targets b, ((v.afterAll ops).validate hooks targets).answer = .ok b →
          (b = true ↔ ((v.afterAll ops).validate hooks targets).validator.errorCount = 0 ∧
            ((v.afterAll ops).validate hooks targets).validator.errorFields = [])) := by
  obtain ⟨hoptions, hmessages, hfields⟩ := hv.fields
  have hnew : Balanced (v.Stray []) v.fieldErrors v.messages := by
    rw [hmessages]
    refine Balanced.empty fun e he => ?_
    obtain ⟨e', he', rfl⟩ := List.mem_map.1 he
    exact (hfields e' he').2
  have hops := balanced_foldl ops hv.named hnew
  refine ⟨hops, fun hreport => ?_⟩
  -- The policy is that of the options, so nothing is stray.
  have hpolicy : (v.afterAll ops).options = options := by
    have hdeclared : (v.afterAll ops).declared.options = v.declared.options := by
      rw [declared_afterAll ops hv.named]
    exact hdeclared.trans hoptions
  have hstray : ∀ selected m, ¬(v.afterAll ops).Stray selected m := by
    rintro selected m ⟨-, hreported, -⟩
    rw [hpolicy, hreport] at hreported
    cases hreported
  refine ⟨errorCount_eq_zero_iff hops (hstray _), fun hooks targets b hanswer => ?_⟩
  have hrun := balanced_validate (hv.named.afterAll ops) hooks targets
  rw [← errorCount_eq_zero_iff hrun (hstray _), and_self]
  exact answer_iff hanswer

/-- A required field with a message of its own. -/
def twin (name : String) : Field where
  name := .str name
  directives := [(.str "required", .bool true), (.str "error", .str "Bad"), (.str "filters", .list [])]

/-- A validator that reports undeclared names, for two required fields with the same message. -/
def twins : Validator where
  options := { policy := ⟨true, true⟩ }
  directives := .builtin
  filters := .builtin
  children := []
  mixins := []
  aliases := {}
  warnings := []
  fields := [(.str "user", twin "user"), (.str "mail", twin "mail")]

/-- The validator is created from the directives of its fields. -/
theorem newFrom_twins :
    NewFrom twins.options .null { fields := .dict (twins.fields.mapValues fun f => .dict f.directives) }
      twins := ⟨twins, rfl, {}, rfl⟩

/-- In a run for both fields and a misspelt name each field has the message that the report has once,
and the other message in the report is stray. -/
theorem balanced_afterAll_twins :
    ∃ w, w = twins.afterAll [.validate .none [.str "usr", .str "mail", .str "user"]] ∧
      w.messages.map Value.text = ["Data validation field usr does not exist", "Bad"] ∧
      w.fieldErrors.map (fun e => e.2.map Value.text) = [["Bad"], ["Bad"]] ∧
      Balanced (w.Stray ["usr", "mail", "user"]) w.fieldErrors w.messages := by
  have hbalanced := (balanced_afterAll newFrom_twins
    [.validate .none [.str "usr", .str "mail", .str "user"]]).1
  have hselected : selectedAfter [.validate .none [.str "usr", .str "mail", .str "user"]] twins [] =
      ["usr", "mail", "user"] := by decide +kernel
  rw [hselected] at hbalanced
  exact ⟨_, rfl, by decide +kernel, by decide +kernel, hbalanced⟩

end Validator

end ParamCheck
