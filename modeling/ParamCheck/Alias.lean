import ParamCheck.Field

/-!
# Aliases

A field can be supplied under other parameter names. An `AliasMap` knows the aliases of every field
and the field of every alias; `AliasMap.build` refuses an alias that is the name of a field or that
two fields share. `AliasMap.move` takes the values of aliases to the fields that they supply.
-/

namespace ParamCheck

/-- The aliases of each field that has any, and the field of each alias. -/
structure AliasMap where
  fields : Entries (List Value) := []
  aliases : Entries Value := []
  deriving Inhabited

namespace AliasMap

/-- Add the aliases of a list to those that are known. -/
def addAliases (declared : Entries Field) (name : Value) :
    List Value → Entries Value → Except Fault (Entries Value)
  | [], known => .ok known
  | alias_ :: rest, known =>
    if !alias_.isKey then .error .badType
    else
      match known.lookup alias_ with
      | some other => .error (.aliasShared name alias_ other)
      | none =>
        if declared.contains alias_ then .error (.aliasIsField name alias_)
        else addAliases declared name rest (known.insert alias_ name)

/-- Add the aliases of the fields of a list. -/
def addFields (declared : Entries Field) :
    List (Value × Field) → AliasMap → Except Fault AliasMap
  | [], m => .ok m
  | (name, f) :: rest, m => do
    let names := Value.unique f.aliases
    let known ← addAliases declared name names m.aliases
    addFields declared rest
      { fields := if names.isEmpty then m.fields else m.fields.insert name names
        aliases := known }

/-- The aliases of all fields. -/
def build (declared : Entries Field) : Except Fault AliasMap := addFields declared declared {}

/-- The field that an alias supplies, if it is an alias. -/
def canonical (m : AliasMap) (name : Value) : Except Fault (Option Value) :=
  if name.isKey then .ok (m.aliases.lookup name) else .error .badType

/-- The last of the names that is present. If that is no name, nothing is. -/
def lastPresent? {α : Type} (params : Entries α) (names : List Value) : Option Value :=
  match names.reverse.find? params.contains with
  | some .null => none
  | found => found

/-- The alias that supplies a field: of several that are present the last one declared. -/
def sourceKey {α : Type} (m : AliasMap) (field : Value) (params : Entries α) :
    Except Fault (Option Value) :=
  if field.isKey then .ok (lastPresent? params ((m.fields.lookup field).getD []))
  else .error .badType

/-- Move the value of a field's alias, if one is present, to the field itself, and drop its other
aliases. -/
def moveField {α : Type} (name : Value) (names : List Value) (params : Entries α)
    (moved : Entries Value) : Entries α × Entries Value :=
  match lastPresent? params names with
  | none => (params, moved)
  | some source =>
    match params.lookup source with
    | none => (params, moved)
    | some v =>
      ((names.foldl Entries.erase params).insert name v, moved.insert name source)

/-- Move all aliased values, and say which alias supplied which field. -/
def move {α : Type} (m : AliasMap) (params : Entries α) : Entries α × Entries Value :=
  m.fields.foldl (fun (params, moved) (name, names) => moveField name names params moved)
    (params, [])

end AliasMap

end ParamCheck
