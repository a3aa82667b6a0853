import ParamCheck.Journal
import ParamCheck.Nested.Options
import ParamCheck.Text.Blank
import ParamCheck.Text.Case
import ParamCheck.Value.Convert

/-!
# Options

The policy and the delimiters of a validator, read from a mapping or from the environment.
-/

namespace ParamCheck

/-- The options of a validator. -/
structure Options where
  policy : Policy := {}
  delimiters : DelimiterOptions := .standard
  deriving Inhabited

namespace Options

/-- The value of an option, in the first of two spellings that is present. -/
def either (data : Entries Value) (key other : String) (fallback : Value) : Value :=
  (data.lookup (.str key)).getD ((data.lookup (.str other)).getD fallback)

/-- The delimiters that an option gives, checked unless they were put together directly. -/
def delimitersOf : Value → Except Fault DelimiterOptions
  | .delimiters hash array escape => .ok ⟨hash, array, escape⟩
  | v => DelimiterOptions.ofValue v

/-- The options that a mapping sets. -/
def ofEntries (data : Entries Value) : Except Fault Options := do
  let delimiters ← delimitersOf (either data "hash_inflator" "hashInflator" .null)
  let flag := fun key other => (either data key other (.bool false)).truthy
  return {
    policy := ⟨flag "ignore_unknown" "ignoreUnknown", flag "report_unknown" "reportUnknown"⟩
    delimiters }

/-- The options that a value sets: a mapping, or anything empty for none. -/
def ofValue (v : Value) : Except Fault Options :=
  match v with
  | .dict data => ofEntries data
  | v => if v.truthy then throw .badOperation else ofEntries []

/-- The options with other delimiters, if some are given. -/
def withDelimiters (o : Options) (v : Value) : Except Fault Options :=
  match v with
  | .null => .ok o
  | .delimiters hash array escape => .ok { o with delimiters := ⟨hash, array, escape⟩ }
  | v => do return { o with delimiters := ← DelimiterOptions.ofEntries (← v.toEntries) }

/-- Whether a variable is set to one of the words for yes. -/
def flagSet (env : List (String × String)) (name : String) : Bool :=
  match env.lookup name with
  | some text =>
    ["1", "true", "yes", "on"].contains (String.ofList (Text.lower (Text.trim text.toList)))
  | none => false

/-- The options that the environment sets. -/
def ofEnvironment (env : List (String × String)) : Except Fault Options := do
  let settings := [("hash_delimiter", "VALIDCLASS_HASH_DELIMITER"),
    ("array_delimiter", "VALIDCLASS_ARRAY_DELIMITER"),
    ("escape_sequence", "VALIDCLASS_ESCAPE_SEQUENCE")].filterMap fun (option, name) =>
      (env.lookup name).map fun text => (Value.str option, Value.str text)
  let delimiters ← DelimiterOptions.ofEntries settings
  return {
    policy := ⟨flagSet env "VALIDCLASS_IGNORE_UNKNOWN", flagSet env "VALIDCLASS_REPORT_UNKNOWN"⟩
    delimiters }

end Options

end ParamCheck
