import ParamCheck.Document.Scalar
import ParamCheck.Document.Token

/-!
# Nodes of a document

The tree that the tokens of a document make up: scalars, sequences and mappings. `Node.ofTokens`
reads it; an empty place is a scalar without quotes and without characters. `Node.read` is the value
of a tree. Its scalars are read level by level from the top, so of several faults that on the
highest level counts, and there the first one.
-/

namespace ParamCheck.Document

/-- A part of a document. -/
inductive Node where
  | plain (text : List Char)
  | quoted (text : List Char)
  | sequence (items : List Node)
  | mapping (entries : List (Node × Node))
  /-- What takes the place of something that cannot be merged. -/
  | unmergeable
  deriving Inhabited

namespace Node

/-- Nothing, where a node could stand. -/
def empty : Node := plain []

/-! ## Merging -/

/-- The entries that a value merges into the mapping around it: those of a mapping, or of several
mappings, of which an earlier one goes before a later one. -/
def merged : Node → List (Node × Node)
  | mapping entries => entries
  | sequence items =>
    (items.map fun item =>
      match item with
      | mapping entries => entries
      | _ => [(unmergeable, empty)]).reverse.flatten
  | _ => [(unmergeable, empty)]

/-- Whether a key asks for its value to be merged. -/
def isMerge : Node → Bool
  | plain ['<', '<'] => true
  | _ => false

/-- A mapping with the given entries. What they merge into it comes first. -/
def ofEntries (entries : List (Node × Node)) : Node :=
  let (merges, own) := entries.partition (·.1.isMerge)
  mapping (merges.flatMap (·.2.merged) ++ own)

/-! ## Reading tokens -/

/-- The fault of tokens that make up no node. -/
def reject {α : Type} : List Token → Except Fault α
  | .broken e :: _ => .error e
  | _ => unreadable

/-- Whether an entry of a flow sequence ends here. -/
def endsItem : List Token → Bool
  | .flowEntry :: _ | .flowSequenceEnd :: _ => true
  | _ => false

/-- Whether an entry of a flow mapping ends here. -/
def endsEntry : List Token → Bool
  | .flowEntry :: _ | .flowMappingEnd :: _ => true
  | _ => false

/-- Whether the next token is the colon before a value. -/
def atValue : List Token → Bool
  | .value :: _ => true
  | _ => false

/-- Whether a key or a value of a block mapping is left out. -/
def endsPart : List Token → Bool
  | .key :: _ | .value :: _ | .blockEnd :: _ => true
  | _ => false

/-- Whether the next token is the hyphen before an entry. -/
def atEntry : List Token → Bool
  | .blockEntry :: _ => true
  | _ => false

/-- Whether the next token ends a block collection. -/
def atEnd : List Token → Bool
  | .blockEnd :: _ => true
  | _ => false

/-- Where a node stands, which decides how it may be written. -/
inductive Position where
  | flow
  | block
  /-- A part of a block mapping, where a sequence needs no indent. -/
  | entry
  deriving DecidableEq

mutual

/-- The node at the start of some tokens, and the tokens after it. -/
def node : Nat → Position → List Token → Except Fault (Node × List Token)
  | 0, _, ts => reject ts
  | fuel + 1, position, ts =>
    match ts, position with
    | .plain text :: rest, _ => .ok (plain text, rest)
    | .quoted text :: rest, _ => .ok (quoted text, rest)
    | .flowSequenceStart :: rest, _ => do
      let (items, rest) ← flowItems fuel true rest
      return (sequence items, rest)
    | .flowMappingStart :: rest, _ => do
      let (entries, rest) ← flowEntries fuel true rest
      return (ofEntries entries, rest)
    | .blockSequenceStart :: rest, .block | .blockSequenceStart :: rest, .entry => do
      let (items, rest) ← blockItems fuel rest
      return (sequence items, rest)
    | .blockMappingStart :: rest, .block | .blockMappingStart :: rest, .entry => do
      let (entries, rest) ← blockEntries fuel rest
      return (ofEntries entries, rest)
    | .blockEntry :: _, .entry => do
      let (items, rest) ← entryItems fuel ts
      return (sequence items, rest)
    | _, _ => reject ts

/-- A node, or nothing if its place has been found empty. -/
def nodeUnless : Nat → Bool → Position → List Token → Except Fault (Node × List Token)
  | 0, _, _, ts => reject ts
  | fuel + 1, isEmpty, position, ts =>
    if isEmpty then .ok (empty, ts) else node fuel position ts

/-- The items of a flow sequence up to its end. -/
def flowItems : Nat → Bool → List Token → Except Fault (List Node × List Token)
  | 0, _, ts => reject ts
  | fuel + 1, isFirst, ts =>
    match ts, isFirst with
    | .flowSequenceEnd :: rest, _ => .ok ([], rest)
    | .flowEntry :: ts, false => flowItem fuel ts
    | ts, true => flowItem fuel ts
    | ts, false => reject ts

/-- The items of a flow sequence, the first of which may be a single entry of a mapping. -/
def flowItem : Nat → List Token → Except Fault (List Node × List Token)
  | 0, ts => reject ts
  | fuel + 1, ts => do
    match ts with
    | .flowSequenceEnd :: rest => return ([], rest)
    | .key :: ts =>
      let (k, ts) ← nodeUnless fuel (atValue ts || endsItem ts) .flow ts
      let (v, ts) ← flowValue fuel endsItem ts
      let (items, ts) ← flowItems fuel false ts
      return (ofEntries [(k, v)] :: items, ts)
    | ts =>
      let (item, ts) ← node fuel .flow ts
      let (items, ts) ← flowItems fuel false ts
      return (item :: items, ts)

/-- The value of an entry of a flow collection, nothing if there is no colon before it. -/
def flowValue : Nat → (List Token → Bool) → List Token → Except Fault (Node × List Token)
  | 0, _, ts => reject ts
  | fuel + 1, ends, ts =>
    match ts with
    | .value :: ts => nodeUnless fuel (ends ts) .flow ts
    | ts => .ok (empty, ts)

/-- The entries of a flow mapping up to its end. -/
def flowEntries : Nat → Bool → List Token → Except Fault (List (Node × Node) × List Token)
  | 0, _, ts => reject ts
  | fuel + 1, isFirst, ts =>
    match ts, isFirst with
    | .flowMappingEnd :: rest, _ => .ok ([], rest)
    | .flowEntry :: ts, false => flowMember fuel ts
    | ts, true => flowMember fuel ts
    | ts, false => reject ts

/-- The entries of a flow mapping, the first of which may be a key alone. -/
def flowMember : Nat → List Token → Except Fault (List (Node × Node) × List Token)
  | 0, ts => reject ts
  | fuel + 1, ts => do
    match ts with
    | .flowMappingEnd :: rest => return ([], rest)
    | .key :: ts =>
      let (k, ts) ← nodeUnless fuel (atValue ts || endsEntry ts) .flow ts
      let (v, ts) ← flowValue fuel endsEntry ts
      let (entries, ts) ← flowEntries fuel false ts
      return ((k, v) :: entries, ts)
    | ts =>
      let (k, ts) ← node fuel .flow ts
      let (entries, ts) ← flowEntries fuel false ts
      return ((k, empty) :: entries, ts)

/-- The items of a block sequence up to its end. -/
def blockItems : Nat → List Token → Except Fault (List Node × List Token)
  | 0, ts => reject ts
  | fuel + 1, ts =>
    match ts with
    | .blockEntry :: ts => do
      let (item, ts) ← nodeUnless fuel (atEntry ts || atEnd ts) .block ts
      let (items, ts) ← blockItems fuel ts
      return (item :: items, ts)
    | .blockEnd :: rest => .ok ([], rest)
    | ts => reject ts

/-- The items of a sequence that has the indent of the mapping around it. -/
def entryItems : Nat → List Token → Except Fault (List Node × List Token)
  | 0, ts => reject ts
  | fuel + 1, ts =>
    match ts with
    | .blockEntry :: ts => do
      let (item, ts) ← nodeUnless fuel (atEntry ts || endsPart ts) .block ts
      let (items, ts) ← entryItems fuel ts
      return (item :: items, ts)
    | ts => .ok ([], ts)

/-- The entries of a block mapping up to its end. -/
def blockEntries : Nat → List Token → Except Fault (List (Node × Node) × List Token)
  | 0, ts => reject ts
  | fuel + 1, ts =>
    match ts with
    | .key :: ts => do
      let (k, ts) ← nodeUnless fuel (endsPart ts) .entry ts
      let (v, ts) ← match ts with
        | .value :: ts => nodeUnless fuel (endsPart ts) .entry ts
        | ts => .ok (empty, ts)
      let (entries, ts) ← blockEntries fuel ts
      return ((k, v) :: entries, ts)
    | .blockEnd :: rest => .ok ([], rest)
    | ts => reject ts

end

/-- Whether a document ends here. -/
def atDocumentEnd : List Token → Bool
  | [] | .documentStart :: _ | .documentEnd :: _ => true
  | _ => false

/-- The tokens without markers for the end of a document at their start. -/
def dropDocumentEnds : List Token → List Token
  | .documentEnd :: ts => dropDocumentEnds ts
  | ts => ts

/-- The only document that some tokens make up. Without tokens there is none. -/
def ofTokens (ts : List Token) : Except Fault Node := do
  let fuel := 4 * ts.length + 4
  let (n, rest) ← match ts with
    | [] => .ok (empty, [])
    | .documentStart :: ts => nodeUnless fuel (atDocumentEnd ts) .block ts
    | ts => node fuel .block ts
  match dropDocumentEnds rest with
  | [] => return n
  | rest => reject rest

/-! ## Values -/

/-- Whether a node is written as the mark for a default, which is a text where it is a key. -/
def isDefaultMark : Node → Bool
  | plain ['='] => true
  | _ => false

/-- What a scalar stands for; a collection stands for nothing by itself. -/
def scalar : Node → Except Fault Value
  | plain text => plainValue text
  | quoted text => .ok (.str (String.ofList text))
  | unmergeable => unreadable
  | _ => .ok .null

/-- The key that a node stands for. A collection is no key. -/
def asKey : Node → Except Fault Value
  | sequence _ | mapping _ => unreadable
  | n => if n.isDefaultMark then .ok (.str "=") else n.scalar

/-- The faults in a node, each with its level, in their order on each level. -/
def faults (level : Nat) : Node → List (Nat × Fault)
  | sequence items => itemFaults (level + 1) items
  | mapping entries => entryFaults (level + 1) entries
  | n =>
    match n.scalar with
    | .ok _ => []
    | .error e => [(level, e)]
where
  /-- The faults in the items of a sequence. -/
  itemFaults (level : Nat) : List Node → List (Nat × Fault)
    | [] => []
    | n :: rest => faults level n ++ itemFaults level rest
  /-- The faults in the entries of a mapping. -/
  entryFaults (level : Nat) : List (Node × Node) → List (Nat × Fault)
    | [] => []
    | (k, v) :: rest =>
      (match k.asKey with
        | .ok _ => []
        | .error e => [(level, e)]) ++ faults level v ++ entryFaults level rest

/-- The value of a node, whatever its faults. -/
def value : Node → Value
  | sequence items => .list (itemValues items)
  | mapping entries => .dict (Entries.ofPairs (entryValues entries))
  | n => n.scalar.toOption.getD .null
where
  /-- The values of the items of a sequence. -/
  itemValues : List Node → List Value
    | [] => []
    | n :: rest => value n :: itemValues rest
  /-- The values of the entries of a mapping. -/
  entryValues : List (Node × Node) → List (Value × Value)
    | [] => []
    | (k, v) :: rest => (k.asKey.toOption.getD .null, value v) :: entryValues rest

/-- The first fault on the highest level. -/
def firstFault : List (Nat × Fault) → Option (Nat × Fault)
  | [] => none
  | f :: rest =>
    match firstFault rest with
    | some g => if g.1 < f.1 then some g else some f
    | none => some f

/-- The value of a node, unless something in it stands for nothing. -/
def read (n : Node) : Except Fault Value :=
  match firstFault (n.faults 0) with
  | some (_, e) => .error e
  | none => .ok n.value

end Node

end ParamCheck.Document
