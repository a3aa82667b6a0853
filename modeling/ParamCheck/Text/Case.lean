import ParamCheck.Text.CaseTable

/-!
# Upper and lower case

The full case mappings of Unicode, in which one character may become several. Only the capital
sigma looks at its neighbours: at the end of a word it becomes `ς`, elsewhere `σ`. The end of a word
is judged through the characters that case mapping ignores, such as an apostrophe.
-/

namespace ParamCheck.Text

/-- The image of a character under the first run that holds it. -/
def CaseRun.image? : List CaseRun → Nat → Option Nat
  | [], _ => none
  | r :: rest, n =>
    if n < r.first then none
    else if n ≤ r.last then
      if (n - r.first) % r.step = 0 then some (r.target + (n - r.first)) else none
    else CaseRun.image? rest n

/-- The upper-case form of one character. -/
def upperChar (c : Char) : List Char :=
  match upperExpansions.lookup c.toNat with
  | some image => image.map Char.ofNat
  | none =>
    match CaseRun.image? upperRuns c.toNat with
    | some n => [Char.ofNat n]
    | none => [c]

/-- The lower-case form of one character on its own. -/
def lowerChar (c : Char) : List Char :=
  match lowerExpansions.lookup c.toNat with
  | some image => image.map Char.ofNat
  | none =>
    match CaseRun.image? lowerRuns c.toNat with
    | some n => [Char.ofNat n]
    | none => [c]

/-- The upper-case form of a text. -/
def upper (cs : List Char) : List Char := cs.flatMap upperChar

/-- Whether the next character that case mapping does not ignore is a cased one. -/
def casedNext (cs : List Char) : Bool :=
  match cs.dropWhile fun c => caseIgnorableRanges.contains c.toNat with
  | [] => false
  | c :: _ => casedRanges.contains c.toNat

/-- The lower-case form of a text, given whether a cased character came last before it. -/
def lowerAfter : Bool → List Char → List Char
  | _, [] => []
  | afterCased, c :: cs =>
    let image :=
      if c = 'Σ' then [if afterCased && !casedNext cs then 'ς' else 'σ'] else lowerChar c
    let afterCased' :=
      if caseIgnorableRanges.contains c.toNat then afterCased else casedRanges.contains c.toNat
    image ++ lowerAfter afterCased' cs

/-- The lower-case form of a text. -/
def lower (cs : List Char) : List Char := lowerAfter false cs

end ParamCheck.Text
