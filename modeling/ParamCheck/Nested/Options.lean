import ParamCheck.Nested.Flatten
import ParamCheck.Nested.Build
import ParamCheck.Nested.Mark

/-!
# Delimiter options

The delimiters as a program declares them, which need not be texts. `DelimiterOptions.ofEntries`
reads them from a mapping and refuses delimiters that are empty or equal. Delimiters that are texts
are used as such (`DelimiterOptions.delimiters?`), and sequences of texts can be used to read keys
(`DelimiterOptions.marks`); any others fail only where they are needed.
-/

namespace ParamCheck

/-- The declared delimiters of flat keys. -/
structure DelimiterOptions where
  hash : Value
  array : Value
  escape : Value
  deriving Inhabited

namespace DelimiterOptions

/-- A point, a colon and a backslash. -/
def standard : DelimiterOptions := ⟨.str ".", .str ":", .str "\\"⟩

/-- Set the option that a key names, in either of its two spellings. -/
def setOption (o : DelimiterOptions) (key v : Value) : Except Fault DelimiterOptions :=
  match key with
  | .str "hash_delimiter" | .str "hashDelimiter" => .ok { o with hash := v }
  | .str "array_delimiter" | .str "arrayDelimiter" => .ok { o with array := v }
  | .str "escape_sequence" | .str "escapeSequence" => .ok { o with escape := v }
  | key => .error (.unknownDelimiterOption key)

/-- The options that a mapping sets, starting from the standard ones. -/
def ofEntries (entries : Entries Value) : Except Fault DelimiterOptions := do
  let o ← entries.foldlM (fun o (k, v) => o.setOption k v) standard
  if !o.hash.truthy || !o.array.truthy then throw .emptyDelimiter
  if o.hash.equals o.array then throw .equalDelimiters
  return o

/-- The options that a value sets: a mapping, or anything empty for the standard ones. -/
def ofValue (v : Value) : Except Fault DelimiterOptions :=
  match v with
  | .dict entries => ofEntries entries
  | v => if v.truthy then throw .badOperation else ofEntries []

/-- The delimiters, if they are texts. An escape sequence that is empty or missing escapes
nothing. -/
def delimiters? (o : DelimiterOptions) : Option Delimiters :=
  match o.hash, o.array, o.escape with
  | .str hash, .str array, .str escape => some ⟨hash.toList, array.toList, escape.toList⟩
  | .str hash, .str array, escape =>
    if escape.truthy then none else some ⟨hash.toList, array.toList, []⟩
  | _, _, _ => none

/-- The key of a path when some delimiter is not a text. Names stand as they are, since they can be
escaped with texts only. An array delimiter is written as any value, a hash delimiter must be a
text. -/
def spellLoosely (o : DelimiterOptions) (path : Path) : Except Fault String := do
  if o.escape.truthy then throw .badType
  let rest ← path.tail.mapM fun s =>
    match s, o.hash with
    | .key name, .str hash => return hash ++ name
    | .key _, _ => throw .badType
    | .index n, _ => return (← o.array.write) ++ String.ofList (Number.natDigits n)
  let first ← match path.head? with
    | some (.key name) => pure name
    | _ => pure ""
  return String.join (first :: rest)

/-- The key of a path. -/
def spell (o : DelimiterOptions) (path : Path) : Except Fault String :=
  match o.delimiters? with
  | some d => .ok (String.ofList (d.spell path))
  | none => o.spellLoosely path

/-- The flat form of a mapping. Every key in it is written. -/
def flatten (o : DelimiterOptions) (v : Value) : Except Fault (Entries Value) :=
  match v with
  | .dict entries =>
    if !v.keysWritable then throw .badValue
    else
      match o.delimiters? with
      | some d => return d.flatten entries
      | none => do
        let pairs ← (Value.leaves.entryLeaves entries).mapM fun (path, leaf) =>
          return (Value.str (← o.spell path), leaf)
        return .ofPairs pairs
  | _ => throw .notFlattenable

/-- Whether a delimiter has a length to order it by. -/
def isSized (v : Value) : Bool :=
  match v with
  | .str _ => true
  | .tuple _ => v.isKey
  | _ => false

/-- The marks that a key is read by. The longer delimiter comes first. -/
def marks (o : DelimiterOptions) : Marks where
  delimiters :=
    let hash := (Mark.ofValue o.hash, false)
    let array := (Mark.ofValue o.array, true)
    if o.hash.same o.array then [array]
    else if hash.1.width < array.1.width then [array, hash]
    else [hash, array]
  escape := if o.escape.truthy then some (.ofValue o.escape) else none

/-- The segments of a flat key, which should be a text. -/
def split (o : DelimiterOptions) (key : Value) : Except Fault (List Segment) :=
  if !isSized o.hash || !isSized o.array then throw .badType
  else
    match key, o.delimiters? with
    | .str s, some d => return d.split s.toList
    | .str s, none => o.marks.split s.toList
    | .tuple [], _ => return [.name []]
    | .tuple _, _ => throw .badOperation
    | _, _ => throw .badType

/-- Build nested data from the entries of a flat mapping, on top of `root`. -/
def buildOn (o : DelimiterOptions) (root : Value) : Entries Value → Except Fault Value
  | [] => .ok root
  | (key, v) :: rest => do
    match Value.place key (← o.split key) root v with
    | (root, none) => o.buildOn root rest
    | (_, some e) => throw e

/-- The nested form of a flat mapping. -/
def unflatten (o : DelimiterOptions) (v : Value) : Except Fault Value :=
  match v with
  | .dict entries => o.buildOn (.dict []) entries
  | _ => throw .badOperation

end DelimiterOptions

end ParamCheck
