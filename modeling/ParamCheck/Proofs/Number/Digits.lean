import Mathlib.Algebra.Group.Nat.Defs
import Mathlib.Tactic.Common
import ParamCheck.Number.Reading
import ParamCheck.Number.Shortest

/-!
# Digits read back

`natDigits` writes a natural with the ten digits of ASCII. `readInt?_natDigits` says that reading
gives the number back, as long as it has no more digits than a whole number may be written with.
-/

namespace ParamCheck.Number

open Text

/-- Every character of a number in decimal is a digit of ASCII. -/
theorem isAsciiDigit_of_mem_natDigits {n : Nat} {c : Char} (h : c ∈ natDigits n) :
    isAsciiDigit c = true := by
  have hdigit := Nat.isDigit_of_mem_toDigits (by decide) (by decide) h
  unfold isAsciiDigit
  simpa [Char.isDigit, Char.le_def] using hdigit

/-- The code point of a digit of ASCII lies between those of zero and nine. -/
theorem toNat_of_isAsciiDigit {c : Char} (h : isAsciiDigit c = true) :
    0x30 ≤ c.toNat ∧ c.toNat < 0x3A := by
  unfold isAsciiDigit at h
  rw [Bool.and_eq_true, decide_eq_true_eq, decide_eq_true_eq, Char.le_def, Char.le_def] at h
  have h0 : 0x30 ≤ c.toNat := UInt32.le_iff_toNat_le.1 h.1
  have h9 : c.toNat ≤ 0x39 := UInt32.le_iff_toNat_le.1 h.2
  omega

/-- The value of a digit of ASCII is its distance from zero. -/
theorem digitValue?_of_isAsciiDigit {c : Char} (h : isAsciiDigit c = true) :
    digitValue? c = some (c.toNat - 0x30) := by
  obtain ⟨h0, h9⟩ := toNat_of_isAsciiDigit h
  have hzero : (decide (0x30 ≤ c.toNat) && decide (c.toNat < 0x30 + 10)) = true := by
    simp only [Bool.and_eq_true, decide_eq_true_eq]
    omega
  have hzeros : zeros = 0x30 :: zeros.tail := rfl
  rw [digitValue?, hzeros]
  simp only [List.find?_cons, hzero, Option.map_some]

/-- No digit of ASCII is blank. -/
theorem isPadding_of_isAsciiDigit {c : Char} (h : isAsciiDigit c = true) : isPadding c = false := by
  obtain ⟨h0, h9⟩ := toNat_of_isAsciiDigit h
  have hblank : ∀ n < 0x3A, 0x30 ≤ n → blankRanges.contains n = false := by decide
  rw [isPadding, isBlank, hblank c.toNat h9 h0, Bool.false_and]

/-- A text without padding keeps all of its characters. -/
theorem unpad_eq_self {cs : List Char} (h : ∀ c ∈ cs, isPadding c = false) : unpad cs = cs := by
  have hdrop : ∀ ds : List Char, (∀ c ∈ ds, isPadding c = false) → ds.dropWhile isPadding = ds := by
    intro ds hds
    cases ds with
    | nil => rfl
    | cons c ds => rw [List.dropWhile_cons_of_neg (by simp [hds c])]
  unfold unpad
  rw [hdrop cs h, hdrop cs.reverse (fun c hc => h c (List.mem_reverse.1 hc)), List.reverse_reverse]

/-- Digits are read to their end. -/
theorem takeDigits_of_isAsciiDigit {cs : List Char} (h : ∀ c ∈ cs, isAsciiDigit c = true) :
    takeDigits cs = (cs.map fun c => c.toNat - 0x30, []) := by
  induction cs with
  | nil => rw [takeDigits]; rfl
  | cons c cs ih =>
    have hcs : ∀ c ∈ cs, isAsciiDigit c = true := fun c hc => h c (List.mem_cons_of_mem _ hc)
    rw [takeDigits, digitValue?_of_isAsciiDigit (h c List.mem_cons_self)]
    · dsimp only
      rw [ih hcs]
      rfl
    · -- No digit is an underscore.
      rintro e rest rfl
      exact absurd (hcs '_' List.mem_cons_self) (by decide)

/-- A text that begins with a digit has no sign. -/
theorem takeSign_of_isAsciiDigit {cs : List Char} (h : ∀ c ∈ cs, isAsciiDigit c = true) :
    takeSign cs = (false, cs) := by
  unfold takeSign
  split
  · exact absurd (h '-' List.mem_cons_self) (by decide)
  · exact absurd (h '+' List.mem_cons_self) (by decide)
  · rfl

/-- The values of the digits of a number stand for it. -/
theorem ofDigits_natDigits (n : Nat) :
    ofDigits ((natDigits n).map fun c => c.toNat - 0x30) = n := by
  unfold ofDigits natDigits
  rw [List.foldl_map]
  exact Nat.ofDigitChars_ten_toDigits

/-- Digits of ASCII, at least one, are read as the number that they stand for, unless they are more than a
whole number may be written with. -/
theorem readInt?_eq_of_isAsciiDigit {cs : List Char} (hne : cs ≠ [])
    (hdigits : ∀ c ∈ cs, isAsciiDigit c = true) :
    readInt? cs = if maxDigits < cs.length then none
      else some (Int.ofNat (ofDigits (cs.map fun c => c.toNat - 0x30))) := by
  unfold readInt?
  rw [unpad_eq_self fun c hc => isPadding_of_isAsciiDigit (hdigits c hc),
    takeSign_of_isAsciiDigit hdigits]
  dsimp only
  rw [takeDigits_of_isAsciiDigit hdigits]
  split
  · next heq => exact absurd (List.map_eq_nil_iff.1 (congrArg Prod.fst heq)) hne
  · next ds _ heq =>
    obtain rfl := congrArg Prod.fst heq
    rw [List.length_map]
    rfl
  · next hnot => exact absurd rfl (hnot _)

/-- Digits of ASCII, at least one and no more than a whole number may be written with, are read as
the number that they stand for. -/
theorem readInt?_of_isAsciiDigit {cs : List Char} (hne : cs ≠ []) (hlength : cs.length ≤ maxDigits)
    (hdigits : ∀ c ∈ cs, isAsciiDigit c = true) :
    readInt? cs = some (Int.ofNat (ofDigits (cs.map fun c => c.toNat - 0x30))) := by
  rw [readInt?_eq_of_isAsciiDigit hne hdigits, if_neg (by omega)]

/-- A number is read back from its decimal form, unless it is too long. -/
theorem readInt?_natDigits_eq (n : Nat) :
    readInt? (natDigits n) = if maxDigits < (natDigits n).length then none else some (Int.ofNat n) := by
  have hne : natDigits n ≠ [] := Nat.toDigits_ne_nil
  rw [readInt?_eq_of_isAsciiDigit hne fun c hc => isAsciiDigit_of_mem_natDigits hc, ofDigits_natDigits]

/-- A number that may be written in decimal is read back. -/
theorem readInt?_natDigits {n : Nat} (h : n < 10 ^ maxDigits) :
    readInt? (natDigits n) = some (Int.ofNat n) := by
  have hlength : (natDigits n).length ≤ maxDigits :=
    (Nat.length_toDigits_le_iff (by decide) (by decide)).2 h
  rw [readInt?_natDigits_eq, if_neg (by omega)]

end ParamCheck.Number
