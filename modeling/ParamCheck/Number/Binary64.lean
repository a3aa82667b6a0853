/-!
# Double-precision numbers

A double as the number it stands for: `(-1)^s · m · 2^e` with exact naturals and integers, so that
comparing, truncating and rounding are computations on them. `ofRatio` rounds a quotient to the
nearest double and a tie to the even one; a quotient too large for a finite double becomes
infinite. Every finite double has one form, with `2 ^ 52 ≤ m < 2 ^ 53` unless `e = -1074`. A NaN
carries a payload, so that two of them can be told apart.
-/

namespace ParamCheck.Number

/-- A double-precision number. -/
inductive Binary64 where
  /-- No number. The payload says where it comes from. -/
  | nan (payload : Nat)
  | infinite (negative : Bool)
  /-- The number `mantissa · 2 ^ exponent` with a sign, which zero has as well. -/
  | finite (negative : Bool) (mantissa : Nat) (exponent : Int)
  deriving DecidableEq, Repr, Inhabited

namespace Binary64

/-- Zero without a sign. -/
def zero : Binary64 := .finite false 0 (-1074)

/-- The least mantissa of a double that has full precision: the number `2 ^ 52`. -/
def leastNormal : Nat := 0x10000000000000

/-- The quotient rounded to a natural, a tie to the even one. -/
def roundHalfEven (num den : Nat) : Nat :=
  let q := num / den
  let r := num % den
  if 2 * r < den then q
  else if den < 2 * r then q + 1
  else if q % 2 = 0 then q else q + 1

/-- The largest `k` with `2 ^ k ≤ num / den`, for positive arguments. -/
def floorLog2 (num den : Nat) : Int :=
  let k : Int := Int.ofNat num.log2 - Int.ofNat den.log2
  let reached :=
    if 0 ≤ k then den * Nat.pow 2 k.toNat ≤ num else den ≤ num * Nat.pow 2 (-k).toNat
  if reached then k else k - 1

/-- The double nearest to `num / den` with the given sign. -/
def ofRatio (negative : Bool) (num den : Nat) : Binary64 :=
  if num = 0 then .finite negative 0 (-1074)
  else
    let e := max (floorLog2 num den - 52) (-1074)
    let m := if 0 ≤ e then roundHalfEven num (den * Nat.pow 2 e.toNat)
      else roundHalfEven (num * Nat.pow 2 (-e).toNat) den
    let (m, e) := if m = 2 * leastNormal then (leastNormal, e + 1) else (m, e)
    if 971 < e then .infinite negative else .finite negative m e

/-- The double nearest to an integer. -/
def ofInt (n : Int) : Binary64 := ofRatio (n < 0) n.natAbs 1

/-- The double nearest to `digits · 10 ^ exponent`. Past the cut-offs the answer no longer depends
on the exponent, so that no huge power is computed. -/
def ofDecimal (negative : Bool) (digits : Nat) (exponent : Int) : Binary64 :=
  let size : Int := Int.ofNat digits.log2 + 1
  if digits = 0 then .finite negative 0 (-1074)
  else if 400 < exponent then .infinite negative
  else if exponent < -400 - size then .finite negative 0 (-1074)
  else if 0 ≤ exponent then ofRatio negative (digits * Nat.pow 10 exponent.toNat) 1
  else ofRatio negative digits (Nat.pow 10 (-exponent).toNat)

/-- Numerator and denominator of a finite double. -/
def ratio? : Binary64 → Option (Int × Nat)
  | .finite negative m e =>
    let (num, den) := if 0 ≤ e then (m * Nat.pow 2 e.toNat, 1) else (m, Nat.pow 2 (-e).toNat)
    some (if negative then -Int.ofNat num else Int.ofNat num, den)
  | _ => none

/-- Whether the first number is below the second; a NaN is below nothing. -/
def lt (a b : Binary64) : Bool :=
  match a, b with
  | .nan _, _ | _, .nan _ => false
  | .infinite s, .infinite t => s && !t
  | .infinite s, .finite .. => s
  | .finite .., .infinite t => !t
  | .finite .., .finite .. =>
    match a.ratio?, b.ratio? with
    | some (p, q), some (r, s) => p * Int.ofNat s < r * Int.ofNat q
    | _, _ => false

/-- The integer part of a finite double, toward zero. -/
def truncate? (x : Binary64) : Option Int := x.ratio?.map fun (p, q) => p.tdiv (Int.ofNat q)

/-- The integer that a double is equal to, if it is. -/
def toInt? (x : Binary64) : Option Int :=
  match x.ratio? with
  | some (p, q) => if p % Int.ofNat q = 0 then some (p / Int.ofNat q) else none
  | none => none

end Binary64

end ParamCheck.Number
