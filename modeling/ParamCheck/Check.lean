import ParamCheck.Hooks
import ParamCheck.Pattern.Mask
import ParamCheck.Value.Convert

/-!
# Checks

The built-in checks. A check is given the argument of its directive, the value and the field, and
its script records a message for each way in which the value fails. `BuiltinCheck.script` is the
script of each check, and what it counts or compares is defined before it. What compiled patterns
find is up to the program.
-/

namespace ParamCheck

open Text

/-- The classes of characters that can be counted. -/
inductive CharClass where
  | alpha
  | digits
  | symbols
  deriving DecidableEq, Repr

namespace CharClass

/-- Whether a character is in a class. A symbol is neither blank nor one of the letters and digits
of ASCII. -/
def holds : CharClass → Char → Bool
  | alpha, c => isAsciiLetter c
  | digits, c => isDecimal c
  | symbols, c => !(isAsciiLetter c || isAsciiDigit c || isBlank c)

/-- The number of characters of a text in a class. -/
def count (k : CharClass) (cs : List Char) : Nat := cs.countP k.holds

/-- What one character of a class is called. -/
def noun : CharClass → String
  | alpha => "alphabetic character"
  | digits => "digit"
  | symbols => "symbol"

end CharClass

/-- Whether a limit is the least or the greatest value allowed. -/
inductive Limit where
  | least
  | greatest
  deriving DecidableEq, Repr

/-- The checks that are always at hand. -/
inductive BuiltinCheck where
  | between
  | length
  | maxLength
  | minLength
  | matchesField
  | options
  | pattern
  | dependsOn
  /-- A limit on the number of characters of a class. -/
  | classCount (k : CharClass) (limit : Limit)
  /-- A limit on the value as a number. -/
  | sum (limit : Limit)
  deriving DecidableEq, Repr

namespace BuiltinCheck

/-- The form of a noun for a number of things. -/
def plural (count : Int) (one many : String) : String := if 1 < count then many else one

/-- The two values that a range argument lists. -/
def pair (argument : Value) : Except Fault (Value × Value) := do
  match ← argument.items with
  | [low, high] => return (low, high)
  | _ => throw .badValue

/-- The two bounds of a range, given as `low-high` or as a pair. -/
def bounds : Value → Except Fault (Int × Int)
  | .str s => do
    let cs := s.toList
    let low ← (Value.str (String.ofList (cs.takeWhile (· ≠ '-')))).toInt
    let high ← (Value.str (String.ofList ((cs.dropWhile (· ≠ '-')).drop 1))).toInt
    return (low, high)
  | argument => do
    let (low, high) ← pair argument
    return (← low.toInt, ← high.toInt)

/-- A range in a message. -/
def rangeText : Value → Except Fault String
  | .str s => .ok s
  | argument => do
    let (low, high) ← pair argument
    return (← low.write) ++ "-" ++ (← high.write)

/-- The pieces of a text between commas, each of which may have one blank after it. -/
def splitComma : List Char → List (List Char)
  | [] => [[]]
  | ',' :: c :: cs => if isBlank c then [] :: splitComma cs else [] :: splitComma (c :: cs)
  | c :: cs =>
    if c = ',' then [] :: splitComma cs
    else
      match splitComma cs with
      | [] => [[c]]
      | piece :: rest => (c :: piece) :: rest

/-- The texts that an argument allows. -/
def optionTexts : Value → Except Fault (List String)
  | .str s => .ok ((splitComma s.toList).map String.ofList)
  | argument => do (← argument.items).mapM Value.write

/-- The handle of another field in a message, or the name itself if there is no such field. -/
def handleOf (scene : Scene) (name : Value) : Value :=
  match scene.fields.lookup name with
  | some other => other.handle
  | none => name

/-- The value of another parameter. -/
def param (scene : Scene) (name : Value) : Except Fault Value :=
  if name.isKey then .ok ((scene.params.lookup name).getD .null) else .error .badType

/-- The number of characters of a value in a message. -/
def size (v : Value) : Except Fault Nat := return (← v.write).length

/-- The value lies within a range of lengths, or is empty. -/
def checkBetween (argument v : Value) (f : Field) : Except Fault Script := do
  let (low, high) ← bounds argument
  let n := Int.ofNat (← size v)
  if n ≠ 0 ∧ ¬(low ≤ n ∧ n ≤ high) then
    Script.failFor f (" must contain between " ++ (← rangeText argument) ++ " characters")
  else return .pass

/-- The value has a given length, or is empty. -/
def checkLength (argument v : Value) (f : Field) : Except Fault Script := do
  let size ← size v
  if size = 0 then return .pass
  let n ← argument.toInt
  if Int.ofNat size ≠ n then
    Script.failFor f (" must contain exactly " ++ (← argument.write) ++ " "
      ++ plural n "character" "characters")
  else return .pass

/-- The value is no longer than a given length. -/
def checkMaxLength (argument v : Value) (f : Field) : Except Fault Script := do
  let size ← size v
  let n ← argument.toInt
  if n < Int.ofNat size then
    Script.failFor f (" must contain " ++ (← argument.write) ++ " "
      ++ plural n "character" "characters" ++ " or less")
  else return .pass

/-- The value is no shorter than a given length. -/
def checkMinLength (argument v : Value) (f : Field) : Except Fault Script := do
  let size ← size v
  let n ← argument.toInt
  if Int.ofNat size < n then
    Script.failFor f (" must contain " ++ (← argument.write) ++ " or more "
      ++ plural n "character" "characters")
  else return .pass

/-- The value is the same as that of another parameter. -/
def checkMatches (argument v : Value) (f : Field) (scene : Scene) : Except Fault Script := do
  let other ← param scene argument
  let other := if other.isBlank then .str "" else other
  if (← v.write) ≠ (← other.write) then
    Script.failFor f (" does not match " ++ (← (handleOf scene argument).write))
  else return .pass

/-- The value is one of the texts allowed. -/
def checkOptions (argument v : Value) (f : Field) : Except Fault Script := do
  let texts ← optionTexts argument
  if texts.contains (← v.write) then return .pass
  else Script.failFor f (" must be " ++ " or ".intercalate texts)

/-- The value has a part that a pattern or a mask describes. -/
def checkPattern (search : PatternSearch) (argument v : Value) (f : Field) :
    Except Fault Script := do
  match argument with
  | .regex source flags =>
    if search source flags (← v.write) then return .pass
    else Script.failFor f (" does not match the pattern " ++ source)
  | argument =>
    let mask ← argument.write
    if Mask.search mask.toList (← v.write).toList then return .pass
    else Script.failFor f (" does not match the pattern " ++ mask)

/-- The message about a parameter that a field depends on. -/
def requirement (f : Field) (scene : Scene) (name : Value) : Except Fault String :=
  return (← f.handle.write) ++ " requires " ++ (← (handleOf scene name).write)

/-- Every parameter that the field depends on has a value. -/
def checkDependsOn (names : List Value) (f : Field) (scene : Scene) : Script :=
  match names with
  | [] => .pass
  | name :: rest =>
    match param scene name with
    | .error e => { answer := .error e }
    | .ok v =>
      let later := checkDependsOn rest f scene
      if v.isBlank then
        match requirement f scene name with
        | .error e => { answer := .error e }
        | .ok message =>
          { effects := .record (.str message) :: later.effects
            answer := later.answer.map fun _ => .bool false }
      else later

/-- The number of characters of a class respects a limit. -/
def checkClassCount (k : CharClass) (limit : Limit) (argument v : Value) (f : Field) :
    Except Fault Script := do
  let count := Int.ofNat (k.count (← v.write).toList)
  let n ← argument.toInt
  let noun := plural n k.noun (k.noun ++ "s")
  match limit with
  | .least =>
    if count < n then
      Script.failFor f (" must contain at least " ++ (← (Value.int n).write) ++ " " ++ noun)
    else return .pass
  | .greatest =>
    if n < count then
      Script.failFor f (" must contain no more than " ++ (← (Value.int n).write) ++ " " ++ noun)
    else return .pass

/-- The value is a number that respects a limit. -/
def checkSum (limit : Limit) (argument v : Value) (f : Field) : Except Fault Script := do
  match v.toFloat with
  | .error .overflow => throw .overflow
  | .error _ => Script.failFor f " must be a number"
  | .ok x =>
    let bound ← argument.toFloat
    match limit with
    | .least =>
      if x.lt bound then Script.failFor f (" must be at least " ++ (← argument.write))
      else return .pass
    | .greatest =>
      if bound.lt x then Script.failFor f (" must be no more than " ++ (← argument.write))
      else return .pass

/-- What a built-in check does, given what compiled patterns find. -/
def script (c : BuiltinCheck) (search : PatternSearch) (argument v : Value) (f : Field)
    (scene : Scene) : Script :=
  match c with
  | between => .ofExcept (checkBetween argument v f)
  | length => .ofExcept (checkLength argument v f)
  | maxLength => .ofExcept (checkMaxLength argument v f)
  | minLength => .ofExcept (checkMinLength argument v f)
  | matchesField => .ofExcept (checkMatches argument v f scene)
  | options => .ofExcept (checkOptions argument v f)
  | pattern => .ofExcept (checkPattern search argument v f)
  | dependsOn => checkDependsOn argument.toList f scene
  | classCount k limit => .ofExcept (checkClassCount k limit argument v f)
  | sum limit => .ofExcept (checkSum limit argument v f)

end BuiltinCheck

end ParamCheck
