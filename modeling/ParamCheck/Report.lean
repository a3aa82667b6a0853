import ParamCheck.Field

/-!
# The report of a run

Messages are kept twice: in the report, which is about all fields, and with the field that they are
about. Both lists are in order and hold each message once. A field with an override records that in
place of any other message.
-/

namespace ParamCheck.Report

/-- Add a message that is not there yet. -/
def add (messages : List Value) (message : Value) : List Value :=
  if messages.any message.same then messages else messages ++ [message]

/-- The message that a field records. -/
def effective (f : Field) (message : Value) : Value :=
  if f.override.truthy then f.override else message

/-- Record a message, a text that is not empty, against a field and in the report. -/
def record (f : Field) (messages : List Value) (message : Value) :
    Except Fault (Field × List Value) :=
  match message with
  | .str s =>
    if s = "" then .error .noErrorTarget
    else
      let m := effective f message
      .ok ({ f with errors := add f.errors m }, add messages m)
  | _ => .error .noErrorTarget

/-- The field without messages. -/
def clear (f : Field) : Field := { f with errors := [] }

/-- The messages of the fields that have any. -/
def byField (fields : List Field) : Entries Value :=
  fields.foldl (fun d f => if f.errors.isEmpty then d else d.insert f.name (.list f.errors)) []

/-- The messages as one text, if all of them are texts. -/
def joined (delimiter : String) (messages : List Value) : Except Fault String := do
  let texts ← messages.mapM fun m =>
    match m with
    | .str s => Except.ok s
    | _ => Except.error Fault.badType
  return delimiter.intercalate texts

end ParamCheck.Report
