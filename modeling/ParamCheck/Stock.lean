import ParamCheck.Hooks
import ParamCheck.Pattern
import ParamCheck.Value.Convert

/-!
# Stock callbacks

A small stock of filters, validations and checks that a program can use by name, and the hooks that
consist of them (`Hooks.stock`). Of compiled patterns these hooks know the ones that `Pattern.parse`
reads, which have no flags.
-/

namespace ParamCheck.Stock

/-- The filters of the stock. -/
def filter (name : String) (v : Value) : Except Fault Value :=
  match name, v with
  | "no_dashes", .str s => .ok (.str (String.ofList (s.toList.filter (· ≠ '-'))))
  | "no_dashes", _ => .error .badOperation
  | "or_na", v => .ok (if v.truthy then v else .str "n/a")
  | "first3", .str s => .ok (.str (String.ofList (s.toList.take 3)))
  | "first3", .list vs => .ok (.list (vs.take 3))
  | "first3", .tuple vs => .ok (.tuple (vs.take 3))
  | "reverse", .str s => .ok (.str (String.ofList s.toList.reverse))
  | "reverse", .list vs => .ok (.list vs.reverse)
  | "reverse", .tuple vs => .ok (.tuple vs.reverse)
  | "exclaim", .str s => .ok (.str (s ++ "!"))
  | "length", v => do return .int (Int.ofNat (← v.items).length)
  | "to_none", _ => .ok .null
  | "to_empty", _ => .ok (.str "")
  | _, _ => .error .badType

/-- A script that records a message and gives an answer. -/
def recording (message : String) (answer : Bool) : Script :=
  { effects := [.record (.str message)], answer := .ok (.bool answer) }

/-- A script that only gives an answer. -/
def answering (v : Value) : Script := { answer := .ok v }

/-- A script that records a message, if that can be written, and gives an answer. -/
def recordingWritten (message : Except Fault String) (answer : Bool) : Script :=
  .ofExcept (message.map fun text => recording text answer)

/-- The parameters in one line. -/
def dump (params : Entries Value) : Except Fault String := do
  let parts ← params.mapM fun (k, v) => return (← k.write) ++ "=" ++ (← v.write)
  return "params " ++ "|".intercalate parts

/-- The validations of the stock. -/
def validation (name : String) (f : Field) (view : View) : Script :=
  match name with
  | "v_true" => answering (.bool true)
  | "v_false" => answering (.bool false)
  | "v_none" => answering .null
  | "v_truthy" => answering (.str "yes")
  | "v_reserved" =>
    if f.value.same (.str "root") then recording "root is reserved" false
    else answering (.bool true)
  | "v_note_true" => recording "noted" true
  | "v_dup3" =>
    recordingWritten (f.handle.write.map (· ++ " must contain 3 or more characters")) false
  | "v_dump" => recordingWritten (dump view.params) true
  | "v_touch" =>
    { effects := [.setParam (.str "touched") (.str "yes"), .setParam f.name (.str "changed")]
      answer := .ok (.bool true) }
  | "v_raise" => { answer := .error (.raised "callback boom") }
  | "v_empty" => recording "" true
  | "v_arg" => answering (f.directive "hint")
  | _ => { answer := .error .badType }

/-- The checks of the stock. -/
def check (name : String) (argument v : Value) (f : Field) (_ : View) : Script :=
  match name with
  | "d_even" =>
    .ofExcept do
      let n ← v.toInt
      if n % 2 ≠ 0 then Script.failFor f " must be even" else return .pass
  | "d_silent" => answering (.bool false)
  | "d_says" => .ofExcept do Script.failFor f (" says " ++ (← argument.write))
  | _ => { answer := .error .badType }

end ParamCheck.Stock

namespace ParamCheck

/-- The hooks of a program whose callbacks are those of the stock. -/
def Hooks.stock : Hooks where
  filter := Stock.filter
  search source _ text := Pattern.searchSource source.toList text.toList
  check := Stock.check
  validation := Stock.validation

end ParamCheck
