import ParamCheck.Report

/-!
# Notes and the policy on unknown declarations

What happens besides an answer is kept as notes, which the command line prints. A `Policy` decides
what becomes of a reference to something that was not declared: it is a fault, or it is noted, or it
is noted and reported.
-/

namespace ParamCheck

/-- Something worth telling. -/
inductive Note where
  | loadedProfile (path : String)
  | appliedMixin (mixin field : Value)
  | copiedField (source field : Value)
  | resolvedAlias (alias_ field : Value)
  | validating (names : List String)
  /-- Something undeclared was passed over. -/
  | ignored (fault : Fault)

/-- What is done about something undeclared. -/
structure Policy where
  ignoreUnknown : Bool := false
  reportUnknown : Bool := false
  deriving DecidableEq, Repr

/-- The report and the notes while declarations are resolved. -/
structure Journal where
  messages : List Value := []
  notes : List Note := []

/-- A computation that keeps its journal when it fails. -/
abbrev Journaled := ExceptT Fault (StateM Journal)

/-- Add a note. -/
def Journaled.note (n : Note) : Journaled Unit :=
  modify fun j => { j with notes := j.notes ++ [n] }

/-- The journal after something undeclared, if the policy lets it pass. It is put into words in any
case. -/
def Policy.tolerate (p : Policy) (fault : Fault) (j : Journal) : Except Fault Journal :=
  if p.ignoreUnknown && fault.isWritable then
    .ok {
      messages := if p.reportUnknown then Report.add j.messages (.str fault.message) else j.messages
      notes := j.notes ++ [.ignored fault] }
  else .error fault

/-- A text can always be written, so an undeclared name is let pass by any policy that ignores such
names. -/
theorem Policy.tolerate_unknownField (p : Policy) (name : String) (j : Journal) :
    p.tolerate (.unknownField (.str name)) j =
      if p.ignoreUnknown then
        .ok {
          messages :=
            if p.reportUnknown then
              Report.add j.messages (.str (Fault.unknownField (.str name)).message)
            else j.messages
          notes := j.notes ++ [.ignored (.unknownField (.str name))] }
      else .error (.unknownField (.str name)) := by
  have hwritable : (Fault.unknownField (.str name)).isWritable = true := rfl
  rw [tolerate, hwritable, Bool.and_true]

/-- Deal with something undeclared. -/
def Policy.unknown (p : Policy) (fault : Fault) : Journaled Unit := do
  set (← p.tolerate fault (← get))

end ParamCheck
