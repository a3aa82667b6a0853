import ParamCheck.Validator

/-!
# Runs

A run checks the fields that its targets select. It works on a copy of the parameters in which
renamed and aliased parameters stand under the names of their fields, fills in filtered values and
defaults there, and runs the checks of each field in turn. `Validator.validate` gives the answer of
a run together with the validator after it: whatever happens, the parameters are those from before
but for filtered values, each under the key that supplied it.
-/

namespace ParamCheck

/-- The state of a run. -/
structure Run where
  params : Entries Value
  fields : Entries Field
  messages : List Value := []
  /-- Filtered values, by the key that supplied them. -/
  filtered : Entries Value := []
  /-- For each checked field whose value is a container, the parameter that holds it. -/
  held : Entries Value := []
  notes : List Note := []

/-- A computation of a run, which keeps its state when it fails. -/
abbrev RunM := ExceptT Fault (StateM Run)

/-- What a run goes by. -/
structure Plan where
  /-- The fields to check, in order. -/
  selected : List String
  /-- The last sign given for each name that had one. -/
  toggles : Entries Toggle
  /-- The key that supplied each renamed or aliased field. -/
  sources : Entries Value
  /-- The key under which the caller has each parameter of the run. -/
  origins : Entries Value
  hasParams : Bool

/-- What becomes of the parameter of a field. -/
structure Supplied where
  /-- The value that is checked. -/
  value : Value
  /-- The result of the filters, if they ran. -/
  filtered : Option Value
  /-- The default has taken the place of an empty text. -/
  isDefault : Bool

/-- What the filters of a field make of a parameter: nothing unless it is a text and there are
filters. -/
def Field.filtered? (hook : FilterHook) (table : FilterTable) (f : Field) (value : Value) :
    Except Fault (Option Value) :=
  match value with
  | .str _ =>
    if f.filters.isEmpty then .ok none
    else (runFilters hook table f.filters value).map some
  | _ => .ok none

/-- The value of a field, given its parameter and what the filters made of that: the default, if
there is one, takes the place of the empty text. -/
def Field.completed (f : Field) (value : Value) (filtered : Option Value) : Supplied :=
  match filtered.getD value, f.default with
  | .str "", .null => { value := .str "", filtered, isDefault := false }
  | .str "", d => { value := d, filtered, isDefault := true }
  | value, _ => { value, filtered, isDefault := false }

/-- The value of a field that has a parameter. -/
def Field.supplied (hook : FilterHook) (table : FilterTable) (f : Field) (value : Value) :
    Except Fault Supplied :=
  (f.filtered? hook table value).map (f.completed value)

namespace Run

/-- The run after a field has been supplied: the filtered value or the default stands for the
parameter, and the key that supplied it is to get the filtered value. -/
def withSupplied (run : Run) (plan : Plan) (name : Value) (s : Supplied) : Run :=
  let run := match s.filtered with
    | some value =>
      { run with
        params := run.params.insert name value
        filtered := run.filtered.insert ((plan.sources.lookup name).getD name) value }
    | none => run
  if s.isDefault then { run with params := run.params.insert name s.value }
  else if s.value.isContainer then
    { run with held := run.held.insert name ((plan.origins.lookup name).getD name) }
  else run

/-- Record a message against a field. -/
def record (name message : Value) : RunM Unit := do
  let run ← get
  match run.fields.lookup name with
  | none => throw .noErrorTarget
  | some f =>
    let (f, messages) ← Report.record f run.messages message
    set { run with fields := run.fields.insert name f, messages }

/-- Record a message that begins with the handle of the field that it is about. -/
def complain (name : Value) (f : Field) (words : String) : RunM Unit := do
  let handle ← f.handle.write
  record name (.str (handle ++ words))

/-- Carry out the effects of a script on a field. -/
def perform (name : Value) : List Effect → RunM Unit
  | [] => return ()
  | .record message :: rest => do
    record name message
    perform name rest
  | .recordFor field message :: rest => do
    record field message
    perform name rest
  | .setParam key v :: rest => do
    modify fun run => { run with params := run.params.insert key v }
    perform name rest
  | .dropParam key :: rest => do
    modify fun run => { run with params := run.params.erase key }
    perform name rest

/-- Carry out a script on a field and give its answer. -/
def play (name : Value) (s : Script) : RunM Value := do
  perform name s.effects
  s.answer

/-- What built-in checks can see. -/
def scene (run : Run) : Scene := ⟨run.params, run.fields⟩

/-- What callbacks can see. -/
def view (run : Run) : View := ⟨run.scene, run.messages⟩

/-- Set the state of a field. -/
def setField (name : Value) (f : Field) : RunM Unit :=
  modify fun run => { run with fields := run.fields.insert name f }

variable (hooks : Hooks) (v : Validator) (plan : Plan)

/-- Take the value of a field that has a parameter into the run. -/
def supply (name : Value) (f : Field) (value : Value) : RunM Value := do
  let s ← f.supplied hooks.filter v.filters value
  modify fun run => run.withSupplied plan name s
  return s.value

/-- Run the checks of a list of directives. -/
def checkDirectives (name value : Value) : List (Value × Value) → RunM Unit
  | [] => return ()
  | (key, argument) :: rest => do
    match v.directives.check? key with
    | none => checkDirectives name value rest
    | some check => do
      let run ← get
      let f := (run.fields.lookup name).getD default
      let _ ← play name (check.script hooks argument value f run.view)
      checkDirectives name value rest

/-- Ask the validation callback of a field, and record a message if it refuses without one. -/
def checkValidation (name : Value) : RunM Unit := do
  let run ← get
  let f := (run.fields.lookup name).getD default
  match f.validation with
  | .null => return ()
  | .callback hook => do
    let answer ← play name (hooks.validation hook f run.view)
    let after := (((← get).fields.lookup name).getD default).errors.length
    if !answer.truthy && after = f.errors.length then
      complain name f " did not pass validation"
  | _ => throw .badType

/-- Take the value of a field into the run: that of its parameter, or else its default. -/
def takeValue (name : Value) (f : Field) : RunM Value := do
  match (← get).params.lookup name with
  | some value => supply hooks v plan name f value
  | none => return f.default

/-- Check the value of a field. -/
def checkValue (name value : Value) (f : Field) : RunM Unit := do
  if f.isRequired && value.isBlank then
    complain name f " is required"
  else do
    if f.isRequired || value.hasValue then
      checkDirectives hooks v name value f.directives
    if plan.hasParams then
      checkValidation hooks name

/-- Check one field. -/
def checkField (name : Value) (f : Field) : RunM Unit := do
  let value ← takeValue hooks v plan name f
  setField name { f with value }
  checkValue hooks v plan name value f

/-- Deal with a selected name that is not a field. -/
def unknown (fault : Fault) : RunM Unit := do
  let run ← get
  let journal ← v.options.policy.tolerate fault ⟨run.messages, run.notes⟩
  set { run with messages := journal.messages, notes := journal.notes }

/-- Check the field of a selected name. -/
def checkName (name : String) : RunM Unit := do
  match (← get).fields.lookup (.str name) with
  | none => unknown v (.unknownField (.str name))
  | some f => do
    let toggle := (plan.toggles.lookup (.str name)).getD .declared
    let f := { f with name := .str name, toggle }
    setField (.str name) f
    checkField hooks v plan (.str name) f

/-- Check the fields of a list of names. -/
def checkFields : List String → RunM Unit
  | [] => return ()
  | name :: rest => do
    checkName hooks v plan name
    checkFields rest

end Run

namespace Validator

/-- Rename parameters by the entries of a mapping target: the parameter of each key is moved to
the name that its target asks for. The sources say which key supplied a name. -/
def rename {α : Type} :
    List (Value × Value) → Entries α → Entries Value →
      Except Fault (Entries α × Entries Value × List String)
  | [], params, sources => .ok (params, sources, [])
  | (key, .str target) :: rest, params, sources =>
    let name : Value := .str (Toggle.parse target).1
    let (params, sources) := match params.lookup key with
      | some v => ((params.erase key).insert name v, sources.insert name key)
      | none => (params, sources)
    (rename rest params sources).map fun (params, sources, requested) =>
      (params, sources, target :: requested)
  | _ :: _, _, _ => .error .badType

/-- The targets of a run as texts. -/
def targetTexts : List Value → Except Fault (List String)
  | [] => .ok []
  | .str s :: rest => (targetTexts rest).map (s :: ·)
  | target :: _ => .error (.badTarget target)

/-- The first mapping among the targets. -/
def mappingTarget? : List Value → Option (List (Value × Value))
  | [] => none
  | .dict entries :: _ => some entries
  | _ :: rest => mappingTarget? rest

/-- What the targets of a run ask for: the parameters after renaming, the keys that supplied renamed
ones, and the targets as texts. -/
def request {α : Type} (targets : List Value) (params : Entries α) :
    Except Fault (Entries α × Entries Value × List String) :=
  match mappingTarget? targets with
  | some entries => rename entries params []
  | none => (targetTexts targets).map fun texts => (params, [], texts)

/-- The last sign that each name was given. -/
def togglesOf : List (Value × Toggle) → Entries Toggle
  | [] => []
  | (name, toggle) :: rest =>
    let later := togglesOf rest
    if toggle = .declared || later.contains name then later else (name, toggle) :: later

/-- The names of a list that must all be texts. -/
def namesOf : List Value → Except Fault (List String)
  | [] => .ok []
  | .str s :: rest => (namesOf rest).map (s :: ·)
  | _ :: _ => .error .badType

/-- Plan a run: rename parameters, move aliased ones, and select the fields to check. These are the
targets and the fields with aliased parameters, or without targets every parameter, or without
parameters every field. -/
def plan (v : Validator) (targets : List Value) : RunM Plan := do
  let tagged := (← get).params.map fun (key, value) => (key, (key, value))
  let (params, sources, requested) ← request targets tagged
  let parsed ← (requested.map Value.str ++ v.queue).mapM fun target => Toggle.ofValue target
  let (params, moved) := v.aliases.move params
  let names := parsed.map (·.1)
  modify fun run =>
    { run with
      params := params.mapValues (·.2)
      notes := run.notes ++ moved.map fun (field, source) => .resolvedAlias source field }
  let selected ← namesOf <|
    if !names.isEmpty then Value.unique (names ++ moved.keys)
    else if !params.isEmpty then params.keys
    else v.fields.keys
  modify fun run => { run with notes := run.notes ++ [.validating selected] }
  return {
    selected
    toggles := togglesOf parsed
    sources := sources.overlay moved
    origins := params.mapValues (·.1)
    hasParams := !params.isEmpty }

/-- A whole run on the state that it starts from. -/
def runTargets (hooks : Hooks) (v : Validator) (targets : List Value) : RunM Unit := do
  let plan ← v.plan targets
  Run.checkFields hooks v plan plan.selected

/-- The parameters after a run: filtered values replace those of the keys that are present. -/
def writeBack (params filtered : Entries Value) : Entries Value :=
  filtered.foldl (fun params (key, value) =>
    if params.contains key then params.insert key value else params) params

/-- The containers after a run, given the parameters before it: filtered values are no containers,
and some values of fields are those of parameters. -/
def sharingAfter (sharing : Sharing) (params : Entries Value) (run : Run) : Sharing :=
  let sharing := if run.held.isEmpty then sharing else sharing.hold params run.held
  run.filtered.keys.foldl Sharing.forget sharing

/-- The outcome of a run: its answer, the validator after it, and what is worth telling. -/
structure Outcome where
  answer : Except Fault Bool
  validator : Validator
  notes : List Note

/-- Check the fields that the targets select. The answer says whether the report is empty. -/
def validate (hooks : Hooks) (v : Validator) (targets : List Value) : Outcome :=
  let v := v.resetFields
  let (outcome, run) :=
    (runTargets hooks v targets).run { params := v.params, fields := v.fields }
  { answer := outcome.map fun _ => run.messages.isEmpty
    validator :=
      { v with
        params := writeBack v.params run.filtered
        fields := run.fields
        messages := run.messages
        sharing := sharingAfter v.sharing v.params run }
    notes := run.notes }

end Validator

end ParamCheck
