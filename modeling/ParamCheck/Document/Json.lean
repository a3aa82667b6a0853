import ParamCheck.Fault
import ParamCheck.Number.Reading
import ParamCheck.Value.Entries

/-!
# JSON documents

A reader of JSON texts that also takes the names of the special numbers. Of a repeated key the last
value counts. A text is unreadable or, if a whole number in it has too many digits, at fault by that
value. The reader spends fuel at every value; a text has fewer values than characters.

A text can escape one half of a pair of surrogates, which is no character. The last block for private
use stands for such halves (`loneSurrogate`).
-/

namespace ParamCheck.Document

open Number (Binary64)

/-- The reading of a text that breaks the rules of a document. -/
def unreadable {α : Type} : Except Fault α := .error .unreadableDocument

/-- The text without JSON white space at its start. -/
def skipJsonSpace (cs : List Char) : List Char :=
  cs.dropWhile fun c => c = ' ' || c = '\t' || c = '\n' || c = '\r'

/-- The value of a hexadecimal digit. -/
def hexValue? (c : Char) : Option Nat :=
  if '0' ≤ c && c ≤ '9' then some (c.toNat - 48)
  else if 'a' ≤ c && c ≤ 'f' then some (c.toNat - 87)
  else if 'A' ≤ c && c ≤ 'F' then some (c.toNat - 55)
  else none

/-- The number that exactly so many hexadecimal digits stand for, and the text after them. -/
def takeHex : Nat → Nat → List Char → Option (Nat × List Char)
  | 0, n, cs => some (n, cs)
  | _ + 1, _, [] => none
  | width + 1, n, c :: cs => (hexValue? c).bind fun d => takeHex width (16 * n + d) cs

/-- What stands for a half of a pair of surrogates. -/
def loneSurrogate (n : Nat) : Char := Char.ofNat (0x10F800 + (n - 0xD800))

/-- Whether a character stands for a half of a pair of surrogates, so that it cannot be printed. -/
def isLoneSurrogate (c : Char) : Bool := 0x10F800 ≤ c.toNat

/-- The character of a code. -/
def charOfCode (n : Nat) : Char :=
  if 0xD800 ≤ n && n < 0xE000 then loneSurrogate n else Char.ofNat n

/-- The character of a code that begins a pair of surrogates, given the text after it. -/
def joinSurrogates (high : Nat) (cs : List Char) : Char × List Char :=
  match cs with
  | '\\' :: 'u' :: rest =>
    match takeHex 4 0 rest with
    | some (low, rest) =>
      if 0xDC00 ≤ low && low < 0xE000 then
        (Char.ofNat (0x10000 + (high - 0xD800) * 0x400 + (low - 0xDC00)), rest)
      else (loneSurrogate high, cs)
    | none => (loneSurrogate high, cs)
  | _ => (loneSurrogate high, cs)

/-- The character of an escaped code, given the text after it. -/
def escaped (n : Nat) (cs : List Char) : Char × List Char :=
  if 0xD800 ≤ n && n < 0xDC00 then joinSurrogates n cs else (charOfCode n, cs)

/-- The escape that follows a backslash, and the text after it. -/
def jsonEscape : List Char → Except Fault (Char × List Char)
  | 'b' :: cs => .ok (Char.ofNat 8, cs)
  | 'f' :: cs => .ok (Char.ofNat 12, cs)
  | 'n' :: cs => .ok ('\n', cs)
  | 'r' :: cs => .ok ('\r', cs)
  | 't' :: cs => .ok ('\t', cs)
  | 'u' :: cs =>
    match takeHex 4 0 cs with
    | some (n, rest) => .ok (escaped n rest)
    | none => unreadable
  | c :: cs => if c.toNat = 34 || c = '\\' || c = '/' then .ok (c, cs) else unreadable
  | [] => unreadable

/-- The rest of a text in quotes up to the closing quote, and the text after it. -/
def jsonString : Nat → List Char → Except Fault (List Char × List Char)
  | 0, _ | _, [] => unreadable
  | fuel + 1, c :: cs =>
    if c.toNat = 34 then .ok ([], cs)
    else if c.toNat < 32 then unreadable
    else if c = '\\' then do
      let (d, rest) ← jsonEscape cs
      (jsonString fuel rest).map fun (text, rest) => (d :: text, rest)
    else (jsonString fuel cs).map fun (text, rest) => (c :: text, rest)

/-- The digits at the start of a text, and the text after them. -/
def spanDigits (cs : List Char) : List Char × List Char := cs.span Text.isAsciiDigit

/-- The exponent at the start of a text, with its mark, and the text after it. -/
def spanExponent (cs : List Char) : List Char × List Char :=
  match cs with
  | [] => ([], [])
  | e :: rest =>
    if e = 'e' || e = 'E' then
      let (sign, rest) := match rest with
        | '+' :: r => (['+'], r)
        | '-' :: r => (['-'], r)
        | r => ([], r)
      match spanDigits rest with
      | ([], _) => ([], cs)
      | (digits, rest) => (e :: sign ++ digits, rest)
    else ([], cs)

/-- A number without its sign: whole if it has neither a point nor an exponent. -/
def jsonNumber (negative : Bool) (cs : List Char) : Except Fault (Value × List Char) :=
  let (whole, rest) := match cs with
    | '0' :: rest => (['0'], rest)
    | cs => spanDigits cs
  if whole.isEmpty then unreadable
  else
    let (fraction, rest) := match rest with
      | '.' :: r =>
        match spanDigits r with
        | ([], _) => ([], rest)
        | (digits, r) => ('.' :: digits, r)
      | _ => ([], rest)
    let (exponent, rest) := spanExponent rest
    let sign := if negative then ['-'] else []
    if fraction.isEmpty && exponent.isEmpty then
      match Number.readInt? (sign ++ whole) with
      | some n => .ok (.int n, rest)
      | none => .error .badValue
    else
      match Number.readFloat? (sign ++ whole ++ fraction ++ exponent) with
      | some x => .ok (.float x, rest)
      | none => unreadable

/-- The text after a word that it begins with. -/
def afterWord? (word : String) (cs : List Char) : Option (List Char) :=
  if word.toList.isPrefixOf cs then some (cs.drop word.length) else none

/-- The first of some words that begins a text, as the value it stands for. -/
def jsonWord (cs : List Char) : Option (Value × List Char) :=
  [("null", Value.null), ("true", .bool true), ("false", .bool false), ("NaN", .float (.nan 0)),
    ("Infinity", .float (.infinite false)), ("-Infinity", .float (.infinite true))].findSome?
    fun (word, v) => (afterWord? word cs).map fun rest => (v, rest)

mutual

/-- The value at the start of a text, and the text after it. -/
def jsonValue : Nat → List Char → Except Fault (Value × List Char)
  | 0, _ => unreadable
  | fuel + 1, cs =>
    match jsonWord cs with
    | some found => .ok found
    | none =>
      match cs with
      | [] => unreadable
      | '[' :: cs =>
        match skipJsonSpace cs with
        | ']' :: rest => .ok (.list [], rest)
        | cs => (jsonItems fuel cs).map fun (vs, rest) => (.list vs, rest)
      | '\x7b' :: cs =>
        match skipJsonSpace cs with
        | '\x7d' :: rest => .ok (.dict [], rest)
        | cs => (jsonEntries fuel cs).map fun (es, rest) => (.dict (Entries.ofPairs es), rest)
      | '-' :: cs => jsonNumber true cs
      | c :: rest =>
        if c.toNat = 34 then
          (jsonString rest.length rest).map fun (text, rest) => (.str (String.ofList text), rest)
        else jsonNumber false cs

/-- The items of an array up to its closing bracket. -/
def jsonItems : Nat → List Char → Except Fault (List Value × List Char)
  | 0, _ => unreadable
  | fuel + 1, cs => do
    let (v, rest) ← jsonValue fuel cs
    match skipJsonSpace rest with
    | ']' :: rest => return ([v], rest)
    | ',' :: rest => (jsonItems fuel (skipJsonSpace rest)).map fun (vs, rest) => (v :: vs, rest)
    | _ => unreadable

/-- The entries of an object up to its closing brace. -/
def jsonEntries : Nat → List Char → Except Fault (List (Value × Value) × List Char)
  | 0, _ => unreadable
  | fuel + 1, cs => do
    let c :: rest := cs | unreadable
    if c.toNat ≠ 34 then unreadable
    else
      let (key, rest) ← jsonString rest.length rest
      let ':' :: rest := skipJsonSpace rest | unreadable
      let (v, rest) ← jsonValue fuel (skipJsonSpace rest)
      let entry : Value × Value := (.str (String.ofList key), v)
      match skipJsonSpace rest with
      | '\x7d' :: rest => return ([entry], rest)
      | ',' :: rest =>
        (jsonEntries fuel (skipJsonSpace rest)).map fun (es, rest) => (entry :: es, rest)
      | _ => unreadable

end

/-- Read a JSON text, which is one value. -/
def readJson (text : String) : Except Fault Value := do
  let cs := skipJsonSpace text.toList
  let (v, rest) ← jsonValue (2 * cs.length + 2) cs
  if (skipJsonSpace rest).isEmpty then return v else unreadable

end ParamCheck.Document
