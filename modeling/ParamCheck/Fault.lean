import ParamCheck.Value.Text

/-!
# Faults

What can go wrong, as causes. A declaration or a request that is at fault has a cause of its own,
and an operation on a value of the wrong type has the cause that names the operation. `Fault.kind`
sorts the causes, and `Fault.message?` gives each its wording. To raise a fault is to word it, and a
wording that shows a value without a text cannot be made: `Fault.thrown` is what is raised then.
A value that fails a check is no fault: it is a message in the report of a run.
-/

namespace ParamCheck

/-- The kinds of declarations that a profile holds under a name. -/
inductive Section where
  | field
  | mixin
  | filter
  | directive
  | child
  deriving DecidableEq, Repr

/-- The name of a kind of declaration at the start of a sentence. -/
def Section.title : Section → String
  | field => "Field"
  | mixin => "Mixin"
  | filter => "Filter"
  | directive => "Directive"
  | child => "Child"

/-- The name of a kind of declaration inside a sentence. -/
def Section.noun : Section → String
  | field => "field"
  | mixin => "mixin"
  | filter => "filter"
  | directive => "directive"
  | child => "child"

/-- The sorts of faults. -/
inductive Fault.Kind where
  | declaration
  | unknownDirective
  | aliasCollision
  | errorTarget
  | unknownField
  /-- A value of the right type that the operation has no answer for. -/
  | value
  /-- A value of a type that the operation has no answer for. -/
  | type
  /-- A text or mapping operation on a value that is neither. -/
  | operation
  | overflow
  /-- A list that is too long to be made. -/
  | memory
  | missingFile
  | notDirectory
  | isDirectory
  /-- A line that cannot be printed. -/
  | encoding
  /-- A document that cannot be read. -/
  | document
  /-- A request of the command line that it refuses. -/
  | request
  deriving DecidableEq, Repr

/-- The cause of a fault. -/
inductive Fault where
  | unnamed (what : Section)
  | redefined (what : Section) (name : String)
  | specNotMapping (what : Section) (name : String)
  | filterNotCallable (name : String)
  | checkNotCallable (name : String)
  | profileNotMapping (source : String)
  | unsupportedKeys (source : String) (keys : List String)
  | sectionNotMapping (source section_ : String)
  /-- A fault found while the declarations of a file were added to others. -/
  | inFile (path : String) (cause : Fault)
  | unknownFilter (entry field : Value)
  | unknownDirective (directive : Value) (owner : Section) (name : Value)
  | aliasShared (field alias_ other : Value)
  | aliasIsField (field alias_ : Value)
  | noErrorTarget
  | unknownMixin (mixin field : Value)
  | unknownSource (source field : Value)
  | unknownField (name : Value)
  | unknownChild (name : Value)
  | unknownDelimiterOption (key : Value)
  | emptyDelimiter
  | equalDelimiters
  | scalarOnPath (key : Value)
  | badIndex (token : String) (key : Value)
  | indexOnMapping
  | keyOnList
  | notFlattenable
  | badTarget (target : Value)
  | filterNotRegistered (name : String)
  | directiveNotRegistered (name : String)
  /-- A callback failed with its own words. -/
  | raised (text : String)
  | badValue
  | badType
  | badOperation
  | overflow
  | tooLong
  | missingFile
  | notDirectory
  | isDirectory
  | unencodable
  | unreadableDocument
  | paramsNotMapping (path : String)
  deriving Inhabited

namespace Fault

/-- The sort of a fault. -/
def kind : Fault → Kind
  | unnamed _ | redefined .. | specNotMapping .. | filterNotCallable _ | checkNotCallable _
  | profileNotMapping _ | unsupportedKeys .. | sectionNotMapping .. | inFile ..
  | unknownFilter .. => .declaration
  | unknownDirective .. => .unknownDirective
  | aliasShared .. | aliasIsField .. => .aliasCollision
  | noErrorTarget => .errorTarget
  | unknownMixin .. | unknownSource .. | unknownField _ | unknownChild _ => .unknownField
  | unknownDelimiterOption _ | emptyDelimiter | equalDelimiters | scalarOnPath _ | badIndex ..
  | indexOnMapping | keyOnList | filterNotRegistered _ | directiveNotRegistered _ | raised _
  | badValue => .value
  | notFlattenable | badTarget _ | badType => .type
  | badOperation => .operation
  | overflow => .overflow
  | tooLong => .memory
  | missingFile => .missingFile
  | notDirectory => .notDirectory
  | isDirectory => .isDirectory
  | unencodable => .encoding
  | unreadableDocument => .document
  | paramsNotMapping _ => .request

/-- The values that the wording of a fault shows. -/
def shows : Fault → List Value
  | inFile _ cause => cause.shows
  | unknownFilter entry field => [entry, field]
  | unknownDirective directive _ name => [directive, name]
  | aliasShared field alias_ other => [field, alias_, other]
  | aliasIsField field alias_ => [field, alias_]
  | unknownMixin mixin field => [mixin, field]
  | unknownSource source field => [source, field]
  | unknownField name | unknownChild name => [name]
  | unknownDelimiterOption key | scalarOnPath key | badIndex _ key => [key]
  | badTarget target => [target]
  | _ => []

/-- Whether the wording of a fault can be written. -/
def isWritable (f : Fault) : Bool := f.shows.all Value.writable

/-- What is raised for a fault. -/
def thrown (f : Fault) : Fault := if f.isWritable then f else badValue

/-- What the wording of a fault would be, if it has one: an operation on a value of the wrong type
has none. -/
def wording? : Fault → Option String
  | unnamed what => some (what.title ++ " name must be a non-empty string")
  | redefined what name => some (what.title ++ " '" ++ name ++ "' is already defined")
  | specNotMapping what name =>
    some (what.title ++ " '" ++ name ++ "' must be declared with a mapping")
  | filterNotCallable name => some ("Filter '" ++ name ++ "' must be callable")
  | checkNotCallable name => some ("Directive '" ++ name ++ "' validator must be callable")
  | profileNotMapping source => some (source ++ ": a profile must be a mapping")
  | unsupportedKeys source keys =>
    some (source ++ ": unsupported top-level key(s): " ++ ", ".intercalate keys)
  | sectionNotMapping source section_ =>
    some (source ++ ": '" ++ section_ ++ "' must be a mapping")
  | inFile path cause => cause.wording?.map fun text => path ++ ": " ++ text
  | unknownFilter entry field =>
    some ("The filter " ++ entry.text ++ " used by the " ++ field.text
      ++ " field is not registered")
  | unknownDirective directive owner name =>
    some ("The " ++ directive.text ++ " directive supplied by the " ++ name.text ++ " "
      ++ owner.noun ++ " is not supported")
  | aliasShared field alias_ other =>
    some ("The field " ++ field.text ++ " contains the alias " ++ alias_.text
      ++ " which is also defined in the field " ++ other.text)
  | aliasIsField field alias_ =>
    some ("The field " ++ field.text ++ " contains the alias " ++ alias_.text
      ++ " which is the name of an existing field")
  | noErrorTarget =>
    some ("Can't set error without proper field and error message data, "
      ++ "field must be a FieldSpec and message a non-empty string")
  | unknownMixin mixin field =>
    some ("The mixin " ++ mixin.text ++ " used by the " ++ field.text ++ " field does not exist")
  | unknownSource source field =>
    some ("The field " ++ source.text ++ " used as mixin_field by the " ++ field.text
      ++ " field does not exist")
  | unknownField name => some ("Data validation field " ++ name.text ++ " does not exist")
  | unknownChild name => some ("Validation child " ++ name.text ++ " does not exist")
  | unknownDelimiterOption key => some ("Unknown hash inflator option '" ++ key.text ++ "'")
  | emptyDelimiter => some "Hash and array delimiters must be non-empty"
  | equalDelimiters => some "Hash and array delimiters must differ"
  | scalarOnPath key => some ("Key '" ++ key.text ++ "' descends into a scalar value")
  | badIndex token key =>
    some ("Invalid array index '" ++ token ++ "' in key '" ++ key.text ++ "'")
  | indexOnMapping => some "Array index used on a mapping"
  | keyOnList => some "Mapping key used on a list"
  | notFlattenable => some "Only mappings can be flattened"
  | badTarget target =>
    some ("validate() targets must be field names or a mapping, got "
      ++ String.ofList target.shown)
  | filterNotRegistered name => some ("Filter '" ++ name ++ "' is not registered")
  | directiveNotRegistered name => some ("Directive '" ++ name ++ "' is not registered")
  | raised text => some text
  | paramsNotMapping path => some (path ++ " must contain a mapping of parameters")
  | badValue | badType | badOperation | overflow | tooLong | missingFile | notDirectory
  | isDirectory | unencodable | unreadableDocument => none

/-- The wording of a fault, if it has one that can be written. -/
def message? (f : Fault) : Option String := if f.isWritable then f.wording? else none

/-- The wording of a fault, empty if it has none. -/
def message (f : Fault) : String := f.message?.getD ""

end Fault

/-- The text of a value. A value that shows an integer with too many digits has none. -/
def Value.write (v : Value) : Except Fault String :=
  match v.write? with
  | some text => .ok text
  | none => .error .badValue

namespace Value

@[simp] theorem write_str (s : String) : (str s).write = .ok s := rfl

theorem write_of_writable {v : Value} (h : v.writable = true) : v.write = .ok v.text := by
  rw [write, write?, h]
  rfl

theorem write_of_not_writable {v : Value} (h : v.writable = false) : v.write = .error .badValue := by
  rw [write, write?, h]
  rfl

/-- What is written is the text of a value that can be written. -/
theorem write_eq_ok_iff {v : Value} {s : String} :
    v.write = .ok s ↔ v.writable = true ∧ v.text = s := by
  cases h : v.writable with
  | true => simp [write_of_writable h]
  | false => simp [write_of_not_writable h]

/-- A value that cannot be written is at fault by its value. -/
theorem write_eq_error_iff {v : Value} {e : Fault} :
    v.write = .error e ↔ v.writable = false ∧ e = .badValue := by
  cases h : v.writable with
  | true => simp [write_of_writable h]
  | false => simp [write_of_not_writable h, eq_comm]

end Value

end ParamCheck
