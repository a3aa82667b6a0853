import ParamCheck.Alias
import ParamCheck.Merge
import ParamCheck.Nested.Shared
import ParamCheck.Options

/-!
# Validators

A validator holds resolved declarations, one set of parameters and the report of its last run.
`Validator.create` resolves declarations once and for all; the other functions of this module read
and change parameters and messages. Its children are profiles, by their place in a catalogue.
-/

namespace ParamCheck

/-- What a validator is created from. -/
structure Declarations where
  fields : Value := .null
  mixins : Value := .null
  filters : FilterTable := []
  directives : DirectiveTable := []
  /-- The profiles of children, by their place in a catalogue. -/
  children : Entries Nat := []
  deriving Inhabited

/-- Declarations and the parameters to check against them. -/
structure Validator where
  options : Options
  directives : DirectiveTable
  filters : FilterTable
  children : Entries Nat
  mixins : Entries Directives
  aliases : AliasMap
  /-- The reports of undeclared references in the declarations. -/
  warnings : List Value
  fields : Entries Field
  params : Entries Value := []
  messages : List Value := []
  /-- Targets that every run adds to its own. -/
  queue : List Value := []
  sharing : Sharing := {}
  deriving Inhabited

namespace Validator

/-- Parameters as they are kept: flattened if some value is nested. -/
def flatParams (o : DelimiterOptions) (v : Value) : Except Fault (Entries Value) :=
  match v with
  | .dict entries => if Entries.isNested entries then o.flatten v else .ok entries
  | _ => .error .badOperation

/-- The value, or no entries if it is empty. -/
def orEmpty (v : Value) : Value := if v.truthy then v else .dict []

/-- Deal with the filters of a field that are not at hand. -/
def checkFilters (policy : Policy) (filters : FilterTable) (name : Value) :
    List Value → Journaled Unit
  | [] => return ()
  | entry :: rest => do
    if !entry.isCallback then
      if !entry.isKey then throw .badType
      if !Entries.contains filters entry then policy.unknown (.unknownFilter entry name)
    checkFilters policy filters name rest

/-- Deal with the filters of all fields that are not at hand. -/
def checkAllFilters (policy : Policy) (filters : FilterTable) : List Field → Journaled Unit
  | [] => return ()
  | f :: rest => do
    checkFilters policy filters f.name f.filters
    checkAllFilters policy filters rest

/-- The fields with their resolved directives, in the state before any run. -/
def fieldsOf (resolved : Entries Directives) : Entries Field :=
  resolved.map fun (name, directives) => (name, { name, directives })

/-- Resolve declarations into a validator with the given parameters. -/
def build (options : Options) (params : Value) (d : Declarations) : Journaled Validator := do
  let directives := DirectiveTable.builtin.overlay d.directives
  let filters := FilterTable.builtin.overlay d.filters
  let params ← flatParams options.delimiters (orEmpty params)
  let (resolved, mixins) ←
    Merge.resolve directives options.policy (orEmpty d.fields) (orEmpty d.mixins)
  let fields := fieldsOf resolved
  checkAllFilters options.policy filters (fields.map (·.2))
  let aliases ← AliasMap.build fields
  let journal ← get
  return {
    options, directives, filters, mixins, aliases, fields, params
    children := d.children
    warnings := journal.messages }

/-- Create a validator, and tell what happened meanwhile. -/
def create (options : Options) (params : Value) (d : Declarations) :
    Except Fault Validator × List Note :=
  let (outcome, journal) := (build options params d).run {}
  (outcome, journal.notes)

/-! ## Messages -/

/-- The number of messages in the report. -/
def errorCount (v : Validator) : Nat := v.messages.length

/-- The messages of the fields that have any. -/
def errorFields (v : Validator) : Entries Value := Report.byField (v.fields.map (·.2))

/-- The report as one text. -/
def errorsText (v : Validator) (delimiter : String) : Except Fault String :=
  Report.joined delimiter v.messages

/-- The messages of the field of that name, none if there is no such field. -/
def errorsOf (v : Validator) (name : Value) : Except Fault (List Value) :=
  if name.isKey then .ok (((v.fields.lookup name).map (·.errors)).getD []) else .error .badType

/-- Record a message against a field of the validator. -/
def recordError (v : Validator) (name message : Value) : Except Fault Unit × Validator :=
  match v.fields.lookup name with
  | none => (.error .noErrorTarget, v)
  | some f =>
    match Report.record f v.messages message with
    | .error e => (.error e, v)
    | .ok (f, messages) => (.ok (), { v with fields := v.fields.insert name f, messages })

/-- Clear the report and the messages of all fields. -/
def resetErrors (v : Validator) : Validator :=
  { v with messages := [], fields := v.fields.mapValues Report.clear }

/-- Clear the report and the state of all fields. -/
def resetFields (v : Validator) : Validator :=
  { v with
    messages := []
    fields := v.fields.mapValues Field.reset
    sharing := { v.sharing with fields := [] } }

/-- Clear the queue, the report and the state of all fields. -/
def reset (v : Validator) : Validator := { v.resetFields with queue := [] }

/-- Add targets to those of every later run. -/
def enqueue (v : Validator) (names : List Value) : Validator :=
  { v with queue := v.queue ++ names }

/-! ## Parameters -/

/-- Set one parameter. -/
def setParam (v : Validator) (name value : Value) : Except Fault Validator :=
  if name.isKey then
    .ok { v with params := v.params.insert name value, sharing := v.sharing.forget name }
  else .error .badType

/-- Remove one parameter. -/
def dropParam (v : Validator) (name : Value) : Except Fault Validator :=
  if name.isKey then
    .ok { v with params := v.params.erase name, sharing := v.sharing.forget name }
  else .error .badType

/-- Carry out effects on a field outside a run, until one fails. -/
def perform (name : Value) : List Effect → Validator → Except Fault Unit × Validator
  | [], v => (.ok (), v)
  | .record message :: rest, v =>
    match v.recordError name message with
    | (.ok _, v) => perform name rest v
    | (.error e, v) => (.error e, v)
  | .recordFor field message :: rest, v =>
    match v.recordError field message with
    | (.ok _, v) => perform name rest v
    | (.error e, v) => (.error e, v)
  | .setParam key value :: rest, v =>
    match v.setParam key value with
    | .ok v => perform name rest v
    | .error e => (.error e, v)
  | .dropParam key :: rest, v =>
    match v.dropParam key with
    | .ok v => perform name rest v
    | .error e => (.error e, v)

/-- What callbacks can see outside a run. -/
def view (v : Validator) : View := ⟨⟨v.params, v.fields⟩, v.messages⟩

/-- Call a check on a value for a field outside a run. -/
def callCheck (hooks : Hooks) (v : Validator) (check : Check) (argument value : Value) (f : Field) :
    Except Fault Value × Validator :=
  let script := check.script hooks argument value f v.view
  match perform f.name script.effects v with
  | (.ok _, v) => (script.answer, v)
  | (.error e, v) => (.error e, v)

/-- A parameter, or else the value that an alias supplies for the field of that name. -/
def param (v : Validator) (name : Value) : Except Fault Value :=
  if !name.isKey then .error .badType
  else
    match v.params.lookup name with
    | some value => .ok value
    | none => do
      match ← v.aliases.sourceKey name v.params with
      | some source => return (v.params.lookup source).getD .null
      | none => return .null

/-- The parameters of the given names, null where there is none. -/
def getParams (v : Validator) (names : List Value) : Except Fault (List Value) :=
  names.mapM fun name =>
    if name.isKey then .ok ((v.params.lookup name).getD .null) else .error .badType

/-- The validator with other parameters. -/
def withParams (v : Validator) (params : Entries Value) : Validator :=
  { v with params, sharing := { v.sharing with params := [] } }

/-- Replace the parameters, flattening them if some value is nested. -/
def setParams (v : Validator) (params : Value) : Except Fault Validator := do
  return v.withParams (← flatParams v.options.delimiters params)

/-- Replace the parameters by the flat form of a mapping. -/
def setNestedParams (v : Validator) (params : Value) : Except Fault Validator := do
  return v.withParams (← v.options.delimiters.flatten params)

/-- The parameters in nested form. Containers that parameters hold become part of the result, so
that building it can change them. -/
def nestedParams (v : Validator) : Except Fault Value × Validator :=
  let built := v.sharing.build v.options.delimiters v.params
  (built.data,
    { v with
      params := built.params
      sharing := built.sharing
      fields := v.fields.map fun (name, f) =>
        (name, { f with value := built.sharing.fieldValue name f.value }) })

end Validator

end ParamCheck
