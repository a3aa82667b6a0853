import ParamCheck.Fault
import ParamCheck.Number.Reading
import ParamCheck.Value.Entries

/-!
# Values as numbers, lists and mappings

`Value.toInt` and `Value.toFloat` read a value as a number: a number as it is, truncated or rounded,
a truth value as zero or one, and a text by the grammar of `Number.readInt?` and
`Number.readFloat?`, and bytes as the text of ASCII that they are. `Value.items` and
`Value.toEntries` read a value as what it lists.
-/

namespace ParamCheck.Value

open Number (Binary64)

/-- The text that bytes of ASCII are. -/
def asciiText? (bs : List UInt8) : Option (List Char) :=
  if bs.all fun b => b.toNat < 0x80 then some (bs.map fun b => Char.ofNat b.toNat) else none

/-- A value as an integer. -/
def toInt : Value → Except Fault Int
  | int n => .ok n
  | bool b => .ok (if b then 1 else 0)
  | float (.nan _) => .error .badValue
  | float x =>
    match x.truncate? with
    | some n => .ok n
    | none => .error .overflow
  | str s =>
    match Number.readInt? s.toList with
    | some n => .ok n
    | none => .error .badValue
  | bytes bs =>
    match (asciiText? bs).bind Number.readInt? with
    | some n => .ok n
    | none => .error .badValue
  | _ => .error .badType

/-- A value as a double. An integer beyond the finite doubles is too large. -/
def toFloat : Value → Except Fault Binary64
  | int n =>
    match Binary64.ofInt n with
    | .infinite _ => .error .overflow
    | x => .ok x
  | bool b => .ok (Binary64.ofInt (if b then 1 else 0))
  | float x => .ok x
  | str s =>
    match Number.readFloat? s.toList with
    | some x => .ok x
    | none => .error .badValue
  | bytes bs =>
    match (asciiText? bs).bind Number.readFloat? with
    | some x => .ok x
    | none => .error .badValue
  | _ => .error .badType

/-- The items that a value lists when it is gone through: characters of a text, numbers of bytes,
items of a sequence or a set, keys of a mapping. -/
def items : Value → Except Fault (List Value)
  | str s => .ok (s.toList.map fun c => str (String.singleton c))
  | bytes bs => .ok (bs.map fun b => int (Int.ofNat b.toNat))
  | set vs => .ok vs
  | list vs => .ok vs
  | tuple vs => .ok vs
  | dict entries => .ok (entries.map (·.1))
  | _ => .error .badType

/-- A value as a mapping: a mapping as it is, and otherwise pairs of a key and a value. -/
def toEntries : Value → Except Fault (Entries Value)
  | dict entries => .ok entries
  | v => do
    let pairs ← (← v.items).mapM fun item => do
      match ← item.items with
      | [k, v] => if k.isKey then return (k, v) else throw .badType
      | _ => throw .badValue
    return .ofPairs pairs

end ParamCheck.Value
