import ParamCheck.Check

/-!
# Directives

Every key of a declaration is a directive. A descriptor says where a directive may stand, whether
its values add up, and what it checks; `DirectiveTable.builtin` is the table of the directives that
are always at hand.
-/

namespace ParamCheck

/-- What a directive checks. -/
inductive Check where
  | builtin (c : BuiltinCheck)
  /-- A check supplied by the program, by the name of its callback. -/
  | custom (callback : String)
  deriving DecidableEq, Repr

/-- What a check does. -/
def Check.script (hooks : Hooks) : Check → Value → Value → Field → View → Script
  | builtin c, argument, v, f, view => c.script hooks.search argument v f view.toScene
  | custom callback, argument, v, f, view => hooks.check callback argument v f view

/-- What is known of a directive. -/
structure Descriptor where
  name : Value
  /-- The directive may stand in a mixin, and is copied from field to field. -/
  mixin : Bool := false
  /-- The directive may stand in a field. -/
  field : Bool := true
  /-- Contributions of mixins and other fields are appended, not passed over. -/
  multi : Bool := false
  check : Option Check := none

/-- The directives at hand, by name. -/
abbrev DirectiveTable := Entries Descriptor

namespace DirectiveTable

/-- A setting that only its field reads. -/
def plain (name : String) (mixin multi : Bool) : Value × Descriptor :=
  (.str name, { name := .str name, mixin, multi })

/-- A check that mixins may hold. -/
def checked (name : String) (c : BuiltinCheck) : Value × Descriptor :=
  (.str name, { name := .str name, mixin := true, check := some (.builtin c) })

/-- The directives that are always at hand. -/
def builtin : DirectiveTable :=
  [plain "alias" false true,
   checked "between" .between,
   plain "default" true false,
   (.str "depends_on",
    { name := .str "depends_on", multi := true, check := some (.builtin .dependsOn) }),
   plain "error" false false,
   plain "errors" false false,
   plain "filter" true true,
   plain "filters" true true,
   plain "label" false false,
   checked "length" .length,
   checked "matches" .matchesField,
   checked "max_alpha" (.classCount .alpha .greatest),
   checked "max_digits" (.classCount .digits .greatest),
   checked "max_length" .maxLength,
   checked "max_sum" (.sum .greatest),
   checked "max_symbols" (.classCount .symbols .greatest),
   checked "min_alpha" (.classCount .alpha .least),
   checked "min_digits" (.classCount .digits .least),
   checked "min_length" .minLength,
   checked "min_sum" (.sum .least),
   checked "min_symbols" (.classCount .symbols .least),
   plain "mixin" false true,
   plain "mixin_field" false true,
   plain "name" false false,
   checked "options" .options,
   checked "pattern" .pattern,
   plain "required" true false,
   plain "validation" false false,
   plain "value" true false]

/-- The check of a directive, if it is known and has one. -/
def check? (table : DirectiveTable) (key : Value) : Option Check :=
  (Entries.lookup table key).bind (·.check)

end DirectiveTable

end ParamCheck
