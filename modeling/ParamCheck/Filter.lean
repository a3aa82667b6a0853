import ParamCheck.Fault
import ParamCheck.Text.Blank
import ParamCheck.Text.Case
import ParamCheck.Text.Digit
import ParamCheck.Value.Convert

/-!
# Filters

A filter changes the text of a parameter before it is checked. The ten built-in filters drop
characters, change case or clean up white space; `BuiltinFilter.onText` is their effect on a text.
`runFilters` runs a list of filters, which are named or given inline, one after the other.
-/

namespace ParamCheck

open Text

/-- The filters that are always at hand. -/
inductive BuiltinFilter where
  | alpha
  | alphanumeric
  | capitalize
  | decimal
  | lowercase
  | numeric
  | strip
  | titlecase
  | trim
  | uppercase
  deriving DecidableEq, Repr

namespace BuiltinFilter

/-- All built-in filters in the order of their names. -/
def all : List BuiltinFilter :=
  [alpha, alphanumeric, capitalize, decimal, lowercase, numeric, strip, titlecase, trim, uppercase]

/-- The name by which a declaration refers to a filter. -/
def name : BuiltinFilter → String
  | alpha => "alpha"
  | alphanumeric => "alphanumeric"
  | capitalize => "capitalize"
  | decimal => "decimal"
  | lowercase => "lowercase"
  | numeric => "numeric"
  | strip => "strip"
  | titlecase => "titlecase"
  | trim => "trim"
  | uppercase => "uppercase"

/-- The text with its first character in upper case. -/
def raiseFirst : List Char → List Char
  | [] => []
  | c :: cs => upperChar c ++ cs

/-- The number of blank characters that follow a full stop and the small letter after them, if
there is at least one blank and such a letter. -/
def nextSentence? (cs : List Char) : Option (Nat × Char) :=
  let blanks := (cs.takeWhile isBlank).length
  match cs.drop blanks with
  | c :: _ => if blanks ≠ 0 && 'a' ≤ c && c ≤ 'z' then some (blanks, c) else none
  | [] => none

/-- Raise the first letter after every full stop and put one space between them, leaving out the
given number of characters that have been dealt with. -/
def raiseSentences : Nat → List Char → List Char
  | _, [] => []
  | skip + 1, _ :: cs => raiseSentences skip cs
  | 0, c :: cs =>
    if c = '.' then
      match nextSentence? cs with
      | some (blanks, d) => '.' :: ' ' :: d.toUpper :: raiseSentences (blanks + 1) cs
      | none => '.' :: raiseSentences 0 cs
    else c :: raiseSentences 0 cs

/-- The list without the empty texts at its end. -/
def dropEmptyEnd (parts : List (List Char)) : List (List Char) :=
  (parts.reverse.dropWhile (·.isEmpty)).reverse

/-- What a built-in filter makes of a text. -/
def onText : BuiltinFilter → List Char → List Char
  | alpha, cs => cs.filter isAsciiLetter
  | alphanumeric, cs => cs.filter fun c => isAsciiLetter c || isAsciiDigit c
  | capitalize, cs => raiseSentences 0 (raiseFirst cs)
  | decimal, cs => cs.filter fun c => isAsciiDigit c || c = '.' || c = ','
  | lowercase, cs => lower cs
  | numeric, cs => cs.filter isDecimal
  | strip, cs => Text.trim (collapse cs)
  | titlecase, cs => [' '].intercalate ((dropEmptyEnd (splitBlank (lower cs))).map raiseFirst)
  | trim, cs => Text.trim cs
  | uppercase, cs => upper cs

/-- A byte that stands for a capital of ASCII, as the small letter. -/
def lowerByte (b : UInt8) : UInt8 := if 65 ≤ b && b ≤ 90 then b + 32 else b

/-- A byte that stands for a small letter of ASCII, as the capital. -/
def upperByte (b : UInt8) : UInt8 := if 97 ≤ b && b ≤ 122 then b - 32 else b

/-- Bytes without those for white space of ASCII at both ends. -/
def trimBytes (bs : List UInt8) : List UInt8 :=
  let isSpace := fun b : UInt8 => (9 ≤ b && b ≤ 13) || b = 32
  ((bs.dropWhile isSpace).reverse.dropWhile isSpace).reverse

/-- The fault of a filter on a value that is no text: a filter that goes by a pattern has no
answer for the type, and one that changes case or trims lacks the operation. -/
def refusal : BuiltinFilter → Value → Fault
  | alpha, _ | alphanumeric, _ | decimal, _ | numeric, _ | strip, _ => .badType
  | capitalize, .list _ | capitalize, .tuple _ => .badOperation
  | capitalize, _ => .badType
  | titlecase, .bytes _ => .badType
  | lowercase, _ | titlecase, _ | trim, _ | uppercase, _ => .badOperation

/-- What a built-in filter makes of a value. Bytes have a case and can be trimmed. -/
def onValue : BuiltinFilter → Value → Except Fault Value
  | f, .str s => .ok (.str (String.ofList (f.onText s.toList)))
  | lowercase, .bytes bs => .ok (.bytes (bs.map lowerByte))
  | trim, .bytes bs => .ok (.bytes (trimBytes bs))
  | uppercase, .bytes bs => .ok (.bytes (bs.map upperByte))
  | f, v => .error (f.refusal v)

end BuiltinFilter

/-- A filter that is at hand under a name. -/
inductive Filter where
  | builtin (f : BuiltinFilter)
  /-- A filter supplied by the program, by the name of its callback. -/
  | custom (callback : String)
  deriving DecidableEq, Repr

/-- The filters at hand, by name. -/
abbrev FilterTable := Entries Filter

/-- What the callbacks of a program do when they are used as filters. -/
abbrev FilterHook := String → Value → Except Fault Value

/-- What a filter makes of a value. -/
def Filter.onValue (hook : FilterHook) : Filter → Value → Except Fault Value
  | builtin f, v => f.onValue v
  | custom callback, v => hook callback v

/-- The built-in filters by name. -/
def FilterTable.builtin : FilterTable :=
  BuiltinFilter.all.map fun f => (.str f.name, .builtin f)

/-- The filter that an entry of a filter list stands for: a callback itself, and otherwise the one
at hand under that name, if any. -/
def FilterTable.find (table : FilterTable) (entry : Value) : Except Fault (Option Filter) :=
  match entry with
  | .callback name => .ok (some (.custom name))
  | entry => if entry.isKey then .ok (Entries.lookup table entry) else .error .badType

/-- Run the filters of a list one after the other. A name that is not at hand is passed over. -/
def runFilterList (hook : FilterHook) (table : FilterTable) :
    List Value → Value → Except Fault Value
  | [], v => .ok v
  | entry :: rest, v => do
    match ← table.find entry with
    | some f => runFilterList hook table rest (← f.onValue hook v)
    | none => runFilterList hook table rest v

/-- Run the filters of a list on a text; any other value is left alone. -/
def runFilters (hook : FilterHook) (table : FilterTable) (entries : List Value) (v : Value) :
    Except Fault Value :=
  match v with
  | .str _ => runFilterList hook table entries v
  | v => .ok v

/-- Run the filters that a value lists on a text; any other value is left alone. -/
def runFiltersOf (hook : FilterHook) (table : FilterTable) (filters v : Value) :
    Except Fault Value :=
  match v with
  | .str _ => do runFilterList hook table (← filters.items) v
  | v => .ok v

end ParamCheck
