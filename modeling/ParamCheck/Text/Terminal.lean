import ParamCheck.Text.Digit

/-!
# Control sequences of a terminal

A text can hold sequences that set the colours of a terminal: an escape character, a bracket,
parameters and a letter. Where a text is not printed on a terminal, `dropControls` leaves them out.
-/

namespace ParamCheck.Text

/-- Whether a character belongs to the parameters of a control sequence. -/
def isControlParameter (c : Char) : Bool := c = ';' || c = '?' || isAsciiDigit c

/-- The number of characters of the control sequence that begins a text. -/
def controlLength? : List Char → Option Nat
  | '\x1b' :: '[' :: cs =>
    let parameters := cs.takeWhile isControlParameter
    match cs.drop parameters.length with
    | c :: _ => if isAsciiLetter c then some (parameters.length + 3) else none
    | [] => none
  | _ => none

/-- The text without control sequences, leaving out the given number of characters that belong to
one. -/
def dropControls : Nat → List Char → List Char
  | _, [] => []
  | skip + 1, _ :: cs => dropControls skip cs
  | 0, c :: cs =>
    match controlLength? (c :: cs) with
    | some n => dropControls (n - 1) cs
    | none => c :: dropControls 0 cs

end ParamCheck.Text
