import ParamCheck.Document.Json
import ParamCheck.Number.Sixty

/-!
# Scalars without quotes

A scalar without quotes is a number, a truth value, a day, a moment or nothing if it is written like
one, and a text otherwise (`plainValue`). Numbers may have underscores, a base, or parts of sixty. A
scalar that is written like something that does not exist is at fault by its value.
-/

namespace ParamCheck.Document

open Number (Binary64)

/-- The scalar words and what they stand for. -/
def plainWords : List (String × Value) :=
  (["", "~", "null", "Null", "NULL"].map fun w => (w, Value.null)) ++
  (["yes", "Yes", "YES", "true", "True", "TRUE", "on", "On", "ON"].map fun w =>
    (w, Value.bool true)) ++
  (["no", "No", "NO", "false", "False", "FALSE", "off", "Off", "OFF"].map fun w =>
    (w, Value.bool false)) ++
  ([".nan", ".NaN", ".NAN"].map fun w => (w, Value.float (.nan 1)))

/-- Whether every character is a digit of the given class or an underscore. -/
def allDigits (isDigit : Char → Bool) (cs : List Char) : Bool :=
  cs.all fun c => isDigit c || c = '_'

/-- Whether a text is a decimal digit with digits and underscores after it. -/
def startsWithDigit (cs : List Char) : Bool :=
  match cs with
  | [] => false
  | c :: cs => Text.isAsciiDigit c && allDigits Text.isAsciiDigit cs

/-- Whether a text is one or two digits below sixty. -/
def isSixtieth (cs : List Char) : Bool :=
  match cs with
  | [a] => Text.isAsciiDigit a
  | [a, b] => '0' ≤ a && a ≤ '5' && Text.isAsciiDigit b
  | _ => false

/-- The text without underscores. -/
def bare (cs : List Char) : List Char := cs.filter (· ≠ '_')

/-! ## Whole numbers -/

/-- How a whole number is written, without its sign and underscores. -/
inductive Numeral where
  | based (base : Nat) (digits : List Char)
  | decimal (digits : List Char)
  /-- Parts of sixty. -/
  | parts (digits : List (List Char))

/-- The parts of sixty that a text writes, underscores included. -/
def splitParts? (cs : List Char) : Option (List (List Char)) :=
  match cs.splitOn ':' with
  | first :: part :: parts =>
    if startsWithDigit first && (part :: parts).all isSixtieth then some (first :: part :: parts)
    else none
  | _ => none

/-- The whole number that a text without a sign writes. -/
def numeral? (cs : List Char) : Option Numeral :=
  let isBit := fun c : Char => c = '0' || c = '1'
  let isOctal := fun c : Char => '0' ≤ c && c ≤ '7'
  match cs with
  | ['0'] => some (.decimal ['0'])
  | '0' :: 'b' :: c :: rest =>
    if allDigits isBit (c :: rest) then some (.based 2 (bare (c :: rest))) else none
  | '0' :: 'x' :: c :: rest =>
    if allDigits (fun c => (hexValue? c).isSome) (c :: rest) then
      some (.based 16 (bare (c :: rest)))
    else none
  | '0' :: rest => if allDigits isOctal rest then some (.based 8 (bare cs)) else none
  | cs =>
    if startsWithDigit cs then some (.decimal (bare cs))
    else (splitParts? cs).map fun parts => .parts (parts.map bare)

/-- The number that digits of a base stand for. -/
def inBase (base : Nat) (cs : List Char) : Nat :=
  cs.foldl (fun n c => base * n + (hexValue? c).getD 0) 0

/-- The number that decimal digits stand for. There must not be too many of them. -/
def readDecimal (digits : List Char) : Except Fault Nat :=
  if Number.maxDigits < digits.length then .error .badValue else .ok (inBase 10 digits)

/-- The number that a numeral stands for. -/
def Numeral.toNat : Numeral → Except Fault Nat
  | based base digits => if digits.isEmpty then .error .badValue else .ok (inBase base digits)
  | decimal digits => readDecimal digits
  | parts digits => do return Number.sixties (← digits.mapM readDecimal)

/-! ## Decimal fractions -/

/-- Whether a text is an exponent with its sign, or nothing. -/
def isExponent (cs : List Char) : Bool :=
  match cs with
  | [] => true
  | e :: sign :: digits =>
    (e = 'e' || e = 'E') && (sign = '+' || sign = '-') && !digits.isEmpty
      && digits.all Text.isAsciiDigit
  | _ => false

/-- Whether a text is digits, underscores and an exponent. -/
def isFraction (cs : List Char) : Bool :=
  isExponent (cs.dropWhile fun c => Text.isAsciiDigit c || c = '_')

/-- The numbers in a text that is a decimal fraction without its sign, or one in parts of sixty. A
fraction that begins with its point has no sign. -/
def fraction? (signed : Bool) (cs : List Char) : Option (List (List Char)) :=
  match cs.span (· ≠ '.') with
  | ([], '.' :: c :: rest) =>
    if !signed && Text.isAsciiDigit c && isFraction rest then some [bare cs] else none
  | (whole, '.' :: rest) =>
    if startsWithDigit whole then if isFraction rest then some [bare cs] else none
    else
      match splitParts? whole with
      | some _ =>
        if allDigits Text.isAsciiDigit rest then some ((bare cs).splitOn ':') else none
      | none => none
  | _ => none

/-- The double that the numbers of a fraction stand for. -/
def readFraction (parts : List (List Char)) : Except Fault Binary64 :=
  match parts.filterMap Number.readFloat? with
  | [x] => .ok x
  | xs =>
    match Number.sixtiesRounded? xs with
    | some x => .ok x
    | none => .error .overflow

/-- A double with a sign. -/
def withSign (negative : Bool) : Binary64 → Binary64
  | .finite _ m e => .finite negative m e
  | .infinite _ => .infinite negative
  | x => x

/-! ## Days and moments -/

/-- A number of at least `least` and at most `most` digits at the start of a text, and the text
after it. -/
def spanNumber? (least most : Nat) (cs : List Char) : Option (Nat × List Char) :=
  let digits := (cs.take most).takeWhile Text.isAsciiDigit
  if digits.length < least then none else some (inBase 10 digits, cs.drop digits.length)

/-- The text after a character that it begins with. -/
def after? (c : Char) : List Char → Option (List Char)
  | d :: cs => if c = d then some cs else none
  | [] => none

/-- The text after blanks. -/
def dropBlanks (cs : List Char) : List Char := cs.dropWhile fun c => c = ' ' || c = '\t'

/-- The distance from universal time that ends a text, if it has one. -/
def offset? (cs : List Char) : Option (Option Int) :=
  match cs with
  | [] => some none
  | cs =>
    match dropBlanks cs with
    | ['Z'] => some (some 0)
    | sign :: rest =>
      if sign = '+' || sign = '-' then do
        let (hours, rest) ← spanNumber? 1 2 rest
        let minutes ← match rest with
          | [] => some 0
          | rest => do
            let (minutes, []) ← spanNumber? 2 2 (← after? ':' rest) | none
            some minutes
        let n := Int.ofNat (hours * 60 + minutes)
        some (some (if sign = '-' then -n else n))
      else none
    | [] => none

/-- The fraction of a second at the start of a text in millionths, and the text after it. -/
def spanMicros (cs : List Char) : Nat × List Char :=
  match cs with
  | '.' :: rest =>
    let digits := rest.takeWhile Text.isAsciiDigit
    let six := digits.take 6
    (inBase 10 (six ++ List.replicate (6 - six.length) '0'), rest.drop digits.length)
  | cs => (0, cs)

/-- The text after what divides a day and a time. -/
def afterDay? (cs : List Char) : Option (List Char) :=
  match cs with
  | c :: rest =>
    if c = 'T' || c = 't' then some rest
    else if c = ' ' || c = '\t' then some (dropBlanks rest)
    else none
  | [] => none

/-- A time of day. -/
def clock? (cs : List Char) : Option Clock := do
  let (hour, rest) ← spanNumber? 1 2 cs
  let (minute, rest) ← spanNumber? 2 2 (← after? ':' rest)
  let (second, rest) ← spanNumber? 2 2 (← after? ':' rest)
  let (micro, rest) := spanMicros rest
  return { hour, minute, second, micro, offset := ← offset? rest }

/-- A day, which has two digits for the month and for the day, or a moment, for which one may do. -/
def timestamp? (cs : List Char) : Option Timestamp := do
  let (year, rest) ← spanNumber? 4 4 cs
  let afterYear ← after? '-' rest
  let (month, rest) ← spanNumber? 1 2 afterYear
  let afterMonth ← after? '-' rest
  let (day, rest) ← spanNumber? 1 2 afterMonth
  match rest with
  | [] =>
    if afterYear.length = 5 && afterMonth.length = 2 then
      some { day := ⟨year, month, day⟩, clock := none }
    else none
  | rest => return { day := ⟨year, month, day⟩, clock := some (← clock? (← afterDay? rest)) }

/-- A day or a moment that there is. -/
def checked (t : Timestamp) : Except Fault Value :=
  if t.day.isValid && t.clock.all Clock.isValid then .ok (.timestamp t) else .error .badValue

/-! ## Scalars -/

/-- The marks for merging and for a default, which are no values. -/
def reserved : List String := ["<<", "="]

/-- What a scalar without quotes stands for. -/
def plainValue (cs : List Char) : Except Fault Value :=
  let word := String.ofList cs
  let (negative, unsigned) := Number.takeSign cs
  if reserved.contains word then unreadable
  else if [".inf", ".Inf", ".INF"].contains (String.ofList unsigned) then
    .ok (.float (.infinite negative))
  else
    match plainWords.lookup word, numeral? unsigned, fraction? (unsigned ≠ cs) unsigned,
      timestamp? cs with
    | some v, _, _, _ => .ok v
    | none, some n, _, _ => do
      let n ← n.toNat
      return .int (if negative then -Int.ofNat n else Int.ofNat n)
    | none, none, some parts, _ => do return .float (withSign negative (← readFraction parts))
    | none, none, none, some t => checked t
    | none, none, none, none => .ok (.str word)

end ParamCheck.Document
