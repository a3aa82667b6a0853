import ParamCheck.Text.Blank
import ParamCheck.Text.Digit
import ParamCheck.Number.Binary64

/-!
# Reading numbers

A number may have white space around it, a sign, decimal digits of any script, and single
underscores between digits. `readInt?` reads whole numbers of at most `maxDigits` digits and
`readFloat?` decimals, with an exponent or by the names of the infinities and NaN, whose payload is
zero.
-/

namespace ParamCheck.Number

open Text

/-- The most digits that a whole number may be read or written with. -/
def maxDigits : Nat := 4300

/-- White space that may stand around a number: the four separators of information may not. -/
def isPadding (c : Char) : Bool := isBlank c && !(0x1C ≤ c.toNat && c.toNat ≤ 0x1F)

/-- The text without the white space around it. -/
def unpad (cs : List Char) : List Char :=
  ((cs.dropWhile isPadding).reverse.dropWhile isPadding).reverse

/-- The sign that begins a text, and the text after it. -/
def takeSign : List Char → Bool × List Char
  | '-' :: cs => (true, cs)
  | '+' :: cs => (false, cs)
  | cs => (false, cs)

/-- The values of a run of digits with single underscores between them, and the text after it. A
run that would end in an underscore ends before it. -/
def takeDigits : List Char → List Nat × List Char
  | [] => ([], [])
  | c :: cs =>
    match digitValue? c with
    | none => ([], c :: cs)
    | some d =>
      let next :=
        match cs with
        | '_' :: e :: rest => if (digitValue? e).isSome then e :: rest else cs
        | _ => cs
      let (ds, rest) := takeDigits next
      (d :: ds, rest)
termination_by cs => cs.length
decreasing_by
  show next.length < (c :: cs).length
  simp only [next]
  split
  · split <;> simp
  · simp

/-- The number that a list of decimal digits stands for. -/
def ofDigits (ds : List Nat) : Nat := ds.foldl (fun n d => 10 * n + d) 0

/-- A whole number. -/
def readInt? (cs : List Char) : Option Int :=
  let (negative, cs) := takeSign (unpad cs)
  match takeDigits cs with
  | ([], _) => none
  | (ds, []) =>
    if maxDigits < ds.length then none
    else some (if negative then -Int.ofNat (ofDigits ds) else Int.ofNat (ofDigits ds))
  | _ => none

/-- The exponent that may follow the digits of a decimal: zero if there is none. -/
def readExponent? : List Char → Option Int
  | [] => some 0
  | c :: cs =>
    if c = 'e' || c = 'E' then
      let (negative, cs) := takeSign cs
      match takeDigits cs with
      | ([], _) => none
      | (ds, []) => some (if negative then -Int.ofNat (ofDigits ds) else Int.ofNat (ofDigits ds))
      | _ => none
    else none

/-- The letters of a text in lower case, those of ASCII only. -/
def lowerAscii (cs : List Char) : List Char := cs.map Char.toLower

/-- A decimal number. -/
def readFloat? (cs : List Char) : Option Binary64 :=
  let (negative, cs) := takeSign (unpad cs)
  let word := String.ofList (lowerAscii cs)
  if word = "inf" || word = "infinity" then some (.infinite negative)
  else if word = "nan" then some (.nan 0)
  else
    let (whole, cs) := takeDigits cs
    let (fraction, cs) :=
      match cs with
      | '.' :: rest => takeDigits rest
      | _ => ([], cs)
    if whole.isEmpty && fraction.isEmpty then none
    else
      (readExponent? cs).map fun e =>
        .ofDecimal negative (ofDigits (whole ++ fraction)) (e - Int.ofNat fraction.length)

end ParamCheck.Number
