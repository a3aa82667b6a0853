import ParamCheck.Number.Reading
import ParamCheck.Number.Shortest
import ParamCheck.Text.Quoted
import ParamCheck.Value

/-!
# The text of a value

`Value.text` is what a message shows of a value: a text as it is, a day or a moment by its parts,
and any other value in the notation of `Value.shown`, in which texts stand between quotes. An integer
cannot be written with more digits than it can be read with: a value is `Value.writable` if it shows
no such integer, and `Value.write?` is its text if it is.
-/

namespace ParamCheck.Value

/-- The parts with `, ` between them. -/
def commaSeparated (parts : List (List Char)) : List Char := [',', ' '].intercalate parts

/-- A number with zeros before it up to a width. -/
def padded (width n : Nat) : List Char :=
  let digits := Number.natDigits n
  List.replicate (width - digits.length) '0' ++ digits

/-- A distance from universal time. -/
def offsetText (minutes : Int) : List Char :=
  let n := minutes.natAbs
  (if minutes < 0 then '-' else '+') :: padded 2 (n / 60) ++ ':' :: padded 2 (n % 60)

/-- A time of day; its fraction is left out if it is zero. -/
def clockText (c : Clock) : List Char :=
  padded 2 c.hour ++ ':' :: padded 2 c.minute ++ ':' :: padded 2 c.second
    ++ (if c.micro = 0 then [] else '.' :: padded 6 c.micro)
    ++ (c.offset.map offsetText).getD []

/-- A day or a moment as a message has it. -/
def timestampText (t : Timestamp) : List Char :=
  padded 4 t.day.year ++ '-' :: padded 2 t.day.month ++ '-' :: padded 2 t.day.day
    ++ ((t.clock.map fun c => ' ' :: clockText c).getD [])

/-- A distance from universal time as it is shown inside a container: none, or days and seconds of
which the seconds are not negative. -/
def offsetShown (minutes : Int) : List Char :=
  if minutes = 0 then "datetime.timezone.utc".toList
  else
    let days := if minutes < 0 then "days=-1, ".toList else []
    let seconds := (if minutes < 0 then minutes + 1440 else minutes).toNat * 60
    "datetime.timezone(datetime.timedelta(".toList ++ days ++ "seconds=".toList
      ++ Number.natDigits seconds ++ [')', ')']

/-- A day or a moment as it is shown inside a container. Seconds and fraction at the end are left
out if they are zero. -/
def timestampShown (t : Timestamp) : List Char :=
  let day := [t.day.year, t.day.month, t.day.day]
  let numbers := fun ns : List Nat => commaSeparated (ns.map Number.natDigits)
  match t.clock with
  | none => "datetime.date(".toList ++ numbers day ++ [')']
  | some c =>
    let fine :=
      if c.micro ≠ 0 then [c.second, c.micro] else if c.second ≠ 0 then [c.second] else []
    let zone := (c.offset.map fun minutes => ", tzinfo=".toList ++ offsetShown minutes).getD []
    "datetime.datetime(".toList ++ numbers (day ++ [c.hour, c.minute] ++ fine) ++ zone ++ [')']

/-- The flags of a pattern that have names, by their bits. -/
def patternFlags : List (Nat × String) :=
  [(1, "re.IGNORECASE"), (2, "re.LOCALE"), (3, "re.MULTILINE"), (4, "re.DOTALL"),
   (5, "re.UNICODE"), (6, "re.VERBOSE"), (7, "re.DEBUG"), (8, "re.ASCII")]

/-- The flags of a pattern as they are shown. That it goes by the classes of Unicode is only shown
together with what contradicts it. -/
def flagsShown (flags : Nat) : List Char :=
  let isPlain := flags.testBit 5 && !flags.testBit 2 && !flags.testBit 8
  let names := (patternFlags.filter fun (i, _) => flags.testBit i && !(i = 5 && isPlain)).map (·.2)
  if names.isEmpty then [] else ", ".toList ++ ("|".intercalate names).toList

/-- A pattern as it is shown: its source is cut off. -/
def patternShown (source : List Char) (flags : Nat) : List Char :=
  "re.compile(".toList ++ (Text.quoted source).take 200 ++ flagsShown flags ++ [')']

/-- A value as it is shown inside a container. -/
def shown : Value → List Char
  | null => "None".toList
  | bool b => (if b then "True" else "False").toList
  | int n => Number.intText n
  | float x => x.text
  | str s => Text.quoted s.toList
  | bytes b => Text.quotedBytes b
  | timestamp t => timestampShown t
  | list items => '[' :: commaSeparated (shownItems items) ++ [']']
  | tuple items =>
    match shownItems items with
    | [one] => '(' :: one ++ [',', ')']
    | parts => '(' :: commaSeparated parts ++ [')']
  | set items =>
    match shownItems items with
    | [] => "set()".toList
    | parts => Char.ofNat 123 :: commaSeparated parts ++ [Char.ofNat 125]
  | dict entries => Char.ofNat 123 :: commaSeparated (shownEntries entries) ++ [Char.ofNat 125]
  | regex source flags => patternShown source.toList flags
  | callback name => "<function ".toList ++ name.toList ++ ['>']
  | delimiters h a e =>
    "HashInflatorConfig(hash_delimiter=".toList ++ shown h ++ ", array_delimiter=".toList
      ++ shown a ++ ", escape_sequence=".toList ++ shown e ++ [')']
where
  /-- The items of a sequence. -/
  shownItems : List Value → List (List Char)
    | [] => []
    | v :: rest => shown v :: shownItems rest
  /-- The entries of a mapping. -/
  shownEntries : List (Value × Value) → List (List Char)
    | [] => []
    | (k, v) :: rest => (shown k ++ ':' :: ' ' :: shown v) :: shownEntries rest

/-- The characters of a value in a message. -/
def chars : Value → List Char
  | str s => s.toList
  | timestamp t => timestampText t
  | v => v.shown

/-- The text of a value in a message. -/
def text : Value → String
  | str s => s
  | v => String.ofList v.chars

/-- No integer in the value has more digits than can be written out. -/
def writable : Value → Bool
  | int n => (Number.natDigits n.natAbs).length ≤ Number.maxDigits
  | list items => writableItems items
  | tuple items => writableItems items
  | set items => writableItems items
  | dict entries => writableEntries entries
  | delimiters hash array escape => hash.writable && array.writable && escape.writable
  | _ => true
where
  /-- Every item of a sequence. -/
  writableItems : List Value → Bool
    | [] => true
    | v :: rest => v.writable && writableItems rest
  /-- Every key and every value of a mapping. -/
  writableEntries : List (Value × Value) → Bool
    | [] => true
    | (k, v) :: rest => k.writable && v.writable && writableEntries rest

/-- The text of a value in a message, if it can be written. -/
def write? (v : Value) : Option String := if v.writable then some v.text else none

end ParamCheck.Value
