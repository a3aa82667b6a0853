import ParamCheck.Number.Reading

/-!
# Numbers in parts of sixty

Hours, minutes and seconds as one number: each part counts sixty times the part after it. Whole
parts add up exactly (`sixties`). Parts that are doubles are added from the last one on, and every
product and every sum is rounded (`sixtiesRounded?`).
-/

namespace ParamCheck.Number

namespace Binary64

/-- The double nearest to a sum, for doubles that are not negative. -/
def plus (a b : Binary64) : Binary64 :=
  match a.ratio?, b.ratio? with
  | some (p, q), some (r, s) => ofRatio false (p.toNat * s + r.toNat * q) (q * s)
  | _, _ => .infinite false

/-- The double nearest to a product, for doubles that are not negative. -/
def times (a b : Binary64) : Binary64 :=
  match a.ratio?, b.ratio? with
  | some (p, q), some (r, s) => ofRatio false (p.toNat * r.toNat) (q * s)
  | _, _ => .infinite false

end Binary64

/-- The number that whole parts make up, the first one counting most. -/
def sixties (parts : List Nat) : Nat := parts.foldl (fun n part => 60 * n + part) 0

/-- The sum of parts, given from the last one on, and of what has been added up before; each part
counts `unit` times. A unit beyond the doubles makes no sum. -/
def addParts? (unit : Nat) (sum : Binary64) : List Binary64 → Option Binary64
  | [] => some sum
  | part :: parts =>
    match Binary64.ofInt (Int.ofNat unit) with
    | .infinite _ => none
    | scale => addParts? (60 * unit) (sum.plus (part.times scale)) parts

/-- The double that parts make up, the first one counting most. -/
def sixtiesRounded? (parts : List Binary64) : Option Binary64 :=
  addParts? 1 .zero parts.reverse

end ParamCheck.Number
