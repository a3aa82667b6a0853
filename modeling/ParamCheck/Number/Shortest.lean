import ParamCheck.Number.Binary64

/-!
# The shortest decimal of a double

A double is printed with the fewest decimal digits that read back as the same double, and of two
such decimals with the nearer one. `shortest` finds them on grids of 1, 2, … 17 digits: if a point
of a grid lies in the interval of reals that round to the double, then so does one of the double's
two neighbours on that grid. `Binary64.text` then places the point.
-/

namespace ParamCheck.Number

/-- The decimal `digits · 10 ^ exponent`. -/
structure Decimal where
  digits : Nat
  exponent : Int
  deriving DecidableEq, Repr

namespace Decimal

/-- Whether `10 ^ k ≤ num / den`. -/
def reaches (num den : Nat) (k : Int) : Bool :=
  if 0 ≤ k then den * Nat.pow 10 k.toNat ≤ num else den ≤ num * Nat.pow 10 (-k).toNat

/-- The largest `k` with `10 ^ k ≤ num / den`, found from the binary logarithm. -/
def floorLog10 (num den : Nat) : Int :=
  let k := Binary64.floorLog2 num den * 1233 / 4096
  if reaches num den (k + 1) then k + 1 else if reaches num den k then k else k - 1

/-- The same decimal without zeros at the end of its digits. -/
def normalize : Nat → Decimal → Decimal
  | 0, d => d
  | fuel + 1, d =>
    if d.digits ≠ 0 && d.digits % 10 = 0 then normalize fuel ⟨d.digits / 10, d.exponent + 1⟩ else d

/-- A decimal with the given number of digits between `low` and `high`, next to `value`; the three
are over one denominator, and the ends count if `closed`. -/
def onGrid? (low value high den : Nat) (closed : Bool) (k : Int) : Option Decimal :=
  let scaleUp := if 0 ≤ k then 1 else Nat.pow 10 (-k).toNat
  let unit := if 0 ≤ k then den * Nat.pow 10 k.toNat else den
  let down := value * scaleUp / unit
  let inside := fun d : Nat =>
    if closed then low * scaleUp ≤ d * unit && d * unit ≤ high * scaleUp
    else low * scaleUp < d * unit && d * unit < high * scaleUp
  let toDown := value * scaleUp - down * unit
  let toUp := (down + 1) * unit - value * scaleUp
  let preferUp := toUp < toDown || (toUp = toDown && down % 2 = 1)
  match inside down, inside (down + 1) with
  | true, true => some ⟨if preferUp then down + 1 else down, k⟩
  | true, false => some ⟨down, k⟩
  | false, true => some ⟨down + 1, k⟩
  | false, false => none

/-- The shortest decimal that rounds to the double `m · 2 ^ e`, for positive `m`. -/
def shortest (m : Nat) (e : Int) : Decimal :=
  let (scale, den) :=
    if 2 ≤ e then (Nat.pow 2 (e - 2).toNat, 1) else (1, Nat.pow 2 (2 - e).toNat)
  let value := 4 * m * scale
  let high := (4 * m + 2) * scale
  let low := (if m = Binary64.leastNormal && -1074 < e then 4 * m - 1 else 4 * m - 2) * scale
  let top := floorLog10 value den
  let grids := (List.range 17).map fun (i : Nat) => top - Int.ofNat i
  match grids.findSome? fun k => onGrid? low value high den (m % 2 = 0) k with
  | some d => normalize 20 d
  | none => ⟨value, 0⟩

end Decimal

/-- The decimal digits of a natural. -/
def natDigits (n : Nat) : List Char := Nat.toDigits 10 n

/-- The decimal text of an integer. -/
def intText (n : Int) : List Char :=
  if n < 0 then '-' :: natDigits n.natAbs else natDigits n.natAbs

/-- A decimal in positional notation when its first digit stands for `10 ^ k` with
`-4 ≤ k < 16`, and with an exponent of at least two digits otherwise. A whole number in positional
notation ends in a point and a zero. -/
def Decimal.text (d : Decimal) : List Char :=
  let digits := natDigits d.digits
  let top : Int := d.exponent + Int.ofNat digits.length - 1
  if -4 ≤ top ∧ top < 16 then
    if 0 ≤ d.exponent then digits ++ List.replicate d.exponent.toNat '0' ++ ['.', '0']
    else if 0 ≤ top then digits.take (top + 1).toNat ++ '.' :: digits.drop (top + 1).toNat
    else '0' :: '.' :: List.replicate (-top - 1).toNat '0' ++ digits
  else
    let mantissa :=
      match digits with
      | [] => []
      | [c] => [c]
      | c :: rest => c :: '.' :: rest
    let size := natDigits top.natAbs
    let padded := if size.length < 2 then '0' :: size else size
    mantissa ++ 'e' :: (if top < 0 then '-' else '+') :: padded

/-- The text of a double. -/
def Binary64.text : Binary64 → List Char
  | .nan _ => ['n', 'a', 'n']
  | .infinite negative => (if negative then ['-'] else []) ++ ['i', 'n', 'f']
  | .finite negative m e =>
    (if negative then ['-'] else []) ++
      (if m = 0 then ['0', '.', '0'] else (Decimal.shortest m e).text)

end ParamCheck.Number
