import ParamCheck.Document.Yaml
import ParamCheck.Profile.Load
import ParamCheck.Text.Terminal
import ParamCheck.Validator.Run

/-!
# The command line

Two commands: `profile check` resolves the declarations of a profile and lists its fields, and
`params validate` checks the parameters of a file against a profile. `Request.ofArguments?` reads
the arguments and `Request.run` answers them from the files alone, so that a program only has to
show the `Request.Outcome`. What reads documents and what can be printed is up to the `Platform`.
-/

namespace ParamCheck

/-- What a program runs on: what reads documents of two kinds, and which characters its output
takes. -/
structure Platform where
  yaml : Reader
  json : Reader
  prints : Char → Bool

/-- The readers of this library and an output that takes every character, but no half of a pair of
surrogates. -/
def Platform.plain : Platform where
  yaml := Document.readYaml
  json := Document.readJson
  prints c := !Document.isLoneSurrogate c

/-- What a request asks for. -/
inductive Command where
  /-- Check the declarations of a profile. -/
  | checkProfile (profile : String) (ignoreUnknown : Bool)
  /-- Check the parameters of a file, or those for some targets. -/
  | validateParams (profile params : String) (targets : List String) (policy : Policy)
  deriving Repr

/-- A request of the command line. -/
structure Request where
  /-- Every note is printed, and not only what was passed over. -/
  verbose : Bool
  command : Command
  deriving Repr

namespace Request

/-- Whether an argument is written like an option. -/
def isOption (argument : String) : Bool :=
  match argument.toList with
  | '-' :: _ :: _ => true
  | _ => false

/-- Split arguments into the options among them, which must be known, and the others. After `--`
there are no options. -/
def splitOptions? (known : List String) : List String → Option (List String × List String)
  | [] => some ([], [])
  | argument :: rest =>
    if argument = "--" then some ([], rest)
    else
      match splitOptions? known rest with
      | none => none
      | some (options, others) =>
        if !isOption argument then some (options, argument :: others)
        else if known.contains argument then some (argument :: options, others)
        else none

/-- The arguments without a `--` at their start. -/
def skipMark : List String → List String
  | "--" :: rest => rest
  | rest => rest

/-- Whether an argument is one of the spellings of the option for every note. -/
def isVerbose (argument : String) : Bool :=
  argument = "--verbose" ||
    match argument.toList with
    | '-' :: flag :: flags => (flag :: flags).all (· = 'v')
    | _ => false

/-- Whether options before the command ask for every note, and the arguments after them. -/
def takeVerbose : List String → Bool × List String
  | [] => (false, [])
  | argument :: rest =>
    if isVerbose argument then (true, (takeVerbose rest).2) else (false, argument :: rest)

/-- The command of the arguments that follow the general options. The files that it reads must be
there. -/
def command? (files : FileTree) (arguments : List String) : Option Command :=
  match skipMark arguments with
  | "profile" :: rest =>
    match skipMark rest with
    | "check" :: rest =>
      match splitOptions? ["--ignore-unknown"] rest with
      | some (options, [path]) =>
        if files.reaches path then some (.checkProfile path (!options.isEmpty)) else none
      | _ => none
    | _ => none
  | "params" :: rest =>
    match skipMark rest with
    | "validate" :: rest =>
      match splitOptions? ["--ignore-unknown", "--report-unknown"] rest with
      | some (options, profile :: params :: targets) =>
        if files.reaches profile && files.reaches params then
          some (.validateParams profile params targets
            ⟨options.contains "--ignore-unknown", options.contains "--report-unknown"⟩)
        else none
      | _ => none
    | _ => none
  | _ => none

/-- The request that the arguments make, if they make one. -/
def ofArguments? (files : FileTree) (arguments : List String) : Option Request :=
  let (verbose, rest) := takeVerbose arguments
  (command? files rest).map fun command => { verbose, command }

end Request

/-- What a program prints and how it ends. -/
structure Request.Outcome where
  exit : Nat := 0
  /-- A fault that ends the program without being reported. -/
  uncaught : Option Fault := none
  out : List String := []
  err : List String := []

/-- The words of a note, for those that are printed only if every note is. A note that shows a value
without a text is lost. -/
def Note.detail? : Note → Option String
  | .loadedProfile path => some ("DEBUG validclass.loader: Loaded profile " ++ path)
  | .appliedMixin mixin field =>
    return "DEBUG validclass.merger: Applied mixin " ++ (← mixin.write?) ++ " to field "
      ++ (← field.write?)
  | .copiedField source field =>
    return "DEBUG validclass.merger: Copied field " ++ (← source.write?) ++ " into field "
      ++ (← field.write?)
  | .resolvedAlias alias_ field =>
    return "DEBUG validclass.aliases: Resolved alias " ++ (← alias_.write?) ++ " to field "
      ++ (← field.write?)
  | .validating names =>
    some ("DEBUG validclass.validator: Validating fields: " ++ ", ".intercalate names)
  | .ignored _ => none

/-- The line that is printed for a note, if any. -/
def Note.line? (verbose : Bool) : Note → Option String
  | .ignored fault =>
    let text := "Ignoring unknown declaration: " ++ fault.message
    some (if verbose then "WARNING validclass.validator: " ++ text else text)
  | note => if verbose then note.detail? else none

/-- Whether a fault is reported in one line: it lies in the declarations, in a document or in the
request. Any other fault comes from a check or a filter that a value is not made for. -/
def Fault.isReported (f : Fault) : Bool :=
  match f.kind with
  | .declaration | .unknownDirective | .aliasCollision | .errorTarget | .unknownField
  | .document | .request => true
  | .value | .type | .operation | .overflow | .memory | .missingFile | .notDirectory
  | .isDirectory | .encoding => false

namespace Request.Outcome

/-- A line without control sequences, since it is not printed on a terminal. -/
def plainLine (line : String) : String := String.ofList (Text.dropControls 0 line.toList)

/-- The outcome of a fault. -/
def ofFault (f : Fault) : Request.Outcome :=
  if f.thrown.isReported then { exit := 1, err := [plainLine ("Error: " ++ f.thrown.message)] }
  else { exit := 1, uncaught := some f.thrown }

/-- The lines that are printed of some that are to be, and what ends the program if that is not all
of them: a line that shows a value without a text, or that has a character the output does not
take. -/
def printLines (prints : Char → Bool) : List (Except Fault String) → List String × Option Fault
  | [] => ([], none)
  | .error e :: _ => ([], some e)
  | .ok line :: rest =>
    if (plainLine line).toList.all prints then
      let (printed, fault) := printLines prints rest
      (plainLine line :: printed, fault)
    else ([], some .unencodable)

/-- The outcome of printing some lines before the program ends with an exit code. -/
def ofLines (prints : Char → Bool) (exit : Nat) (lines : List (Except Fault String)) :
    Request.Outcome :=
  match printLines prints lines with
  | (out, none) => { exit, out }
  | (out, some e) => { exit := 1, uncaught := some e, out }

/-- The outcome with the lines of notes before those about a fault. -/
def withNotes (o : Request.Outcome) (verbose : Bool) (notes : List Note) : Request.Outcome :=
  { o with err := notes.filterMap (Note.line? verbose) ++ o.err }

end Request.Outcome

namespace Command

/-- The directives that a field lists: those that are not an empty list. -/
def listedDirectives (f : Field) : List String :=
  (f.directives.filter fun (_, v) => !v.same (.list [])).map (·.1.text)

/-- A line that shows a value after a mark. -/
def markedLine (mark : String) (v : Value) : Except Fault String := return mark ++ (← v.write)

/-- The line about a field that has been resolved. -/
def fieldLine (name : Value) (f : Field) : Except Fault String := do
  let directives := ", ".intercalate (listedDirectives f)
  return (← markedLine "  ✓ " name) ++ " ("
    ++ (if directives = "" then "no directives" else directives) ++ ")"

/-- What is printed about a profile that resolves. -/
def resolvedLines (v : Validator) : List (Except Fault String) :=
  let unknown := v.warnings
  .ok ("Resolved " ++ toString v.fields.length ++ " fields, " ++ toString v.mixins.length
      ++ " mixins:")
    :: v.fields.map (fun (name, f) => fieldLine name f)
    ++ unknown.map (markedLine "  ! ")
    ++ (if unknown.isEmpty then [.ok "", .ok "Profile is valid."]
      else [.ok "", .ok (toString unknown.length ++ " unknown declaration(s) ignored.")])

/-- What is printed about a run that has found something. -/
def reportLines (v : Validator) : List (Except Fault String) :=
  v.messages.map (markedLine "  ✗ ")
    ++ [.ok "", .ok (toString v.errorCount ++ " error(s) found")]

variable (platform : Platform)

/-- The parameters of a file, in JSON if its name says so. -/
def loadParams (files : FileTree) (path : String) : Except Fault Value := do
  let route := Route.ofText path
  let text ← match files.find route with
    | .ok (.file text) => pure text
    | .ok (.directory _) => throw .isDirectory
    | .error e => throw (Profile.lost e)
  let isJson := Text.lower route.ending.toList = ".json".toList
  match ← if isJson then platform.json text else platform.yaml text with
  | .null => return .dict []
  | .dict entries => return .dict entries
  | _ => throw (.paramsNotMapping route.text)

/-- A validator for a profile and parameters, both read from files. -/
def buildValidator (files : FileTree) (profile : String) (policy : Policy)
    (params : Except Fault Value) : Except Fault Validator × List Note :=
  let (loaded, journal) := (Profile.load platform.yaml files profile).run {}
  match loaded with
  | .error e => (.error e, journal.notes)
  | .ok p =>
    match params with
    | .error e => (.error e, journal.notes)
    | .ok params =>
      let (built, notes) := p.build { policy } params
      (built, journal.notes ++ notes)

/-- The outcome of checking a profile. -/
def runCheck (files : FileTree) (verbose : Bool) (profile : String) (ignoreUnknown : Bool) :
    Request.Outcome :=
  let (built, notes) :=
    buildValidator platform files profile ⟨ignoreUnknown, ignoreUnknown⟩ (.ok .null)
  let outcome := match built with
    | .error e => Request.Outcome.ofFault e
    | .ok v => .ofLines platform.prints 0 (resolvedLines v)
  outcome.withNotes verbose notes

/-- The outcome of checking parameters. -/
def runValidate (files : FileTree) (verbose : Bool) (profile params : String)
    (targets : List String) (policy : Policy) : Request.Outcome :=
  let (built, notes) :=
    buildValidator platform files profile policy (loadParams platform files params)
  match built with
  | .error e => (Request.Outcome.ofFault e).withNotes verbose notes
  | .ok v =>
    let run := v.validate Hooks.none (targets.map Value.str)
    let outcome := match run.answer with
      | .error e => Request.Outcome.ofFault e
      | .ok true => .ofLines platform.prints 0 [.ok "Valid"]
      | .ok false => .ofLines platform.prints 1 (reportLines run.validator)
    outcome.withNotes verbose (notes ++ run.notes)

end Command

/-- The outcome of a request. -/
def Request.run (platform : Platform) (files : FileTree) (r : Request) : Request.Outcome :=
  match r.command with
  | .checkProfile profile ignoreUnknown =>
    Command.runCheck platform files r.verbose profile ignoreUnknown
  | .validateParams profile params targets policy =>
    Command.runValidate platform files r.verbose profile params targets policy

end ParamCheck
