import Mathlib.Algebra.Group.Nat.Defs
import Mathlib.Tactic.Common
import ParamCheck.Value.Convert

/-!
# Integers that are too large for a double

The largest finite double is `2 ^ 1024 - 2 ^ 971`. An integer is rounded to it if it lies below the
midpoint `2 ^ 1024 - 2 ^ 970` between that and the next power of two, and from there on it is too
large (`Binary64.ofInt_eq_infinite_iff`). So this is when a value cannot be read as a double although
it is a number (`Value.toFloat_overflow_iff`).
-/

namespace ParamCheck

namespace Number.Binary64

/-- The first natural that is too large for a double. -/
def bound : Nat := 2 ^ 1024 - 2 ^ 970

/-- A quotient is rounded up to a number exactly when it is less than that by no more than a half, if
the number before it is odd. -/
theorem roundHalfEven_eq_iff {num half q : Nat} (hhalf : 0 < half)
    (hlt : num < (q + 1) * (2 * half)) (hodd : q % 2 = 1) :
    roundHalfEven num (2 * half) = q + 1 ↔ q * (2 * half) + half ≤ num := by
  have hsplit : 2 * half * (num / (2 * half)) + num % (2 * half) = num := Nat.div_add_mod _ _
  have hrest : num % (2 * half) < 2 * half := Nat.mod_lt _ (by omega)
  have hle : num / (2 * half) ≤ q := Nat.lt_succ_iff.1 ((Nat.div_lt_iff_lt_mul (by omega)).2 hlt)
  unfold roundHalfEven
  dsimp only
  rcases Nat.lt_or_eq_of_le hle with hsmall | hq
  · -- A quotient that is smaller leaves the number below the one before it.
    have hmul : (num / (2 * half) + 1) * (2 * half) ≤ q * (2 * half) :=
      Nat.mul_le_mul_right _ hsmall
    have hnum : num < q * (2 * half) := by
      rw [Nat.succ_mul, Nat.mul_comm] at hmul
      omega
    refine iff_of_false ?_ (by omega)
    split
    · omega
    · split
      · omega
      · split <;> omega
  · rw [hq] at hsplit ⊢
    have hcomm : 2 * half * q = q * (2 * half) := Nat.mul_comm _ _
    split
    · omega
    · split
      · omega
      · rw [if_neg (by omega)]
        omega

/-- The exponent of a natural is that of its highest binary digit. -/
theorem floorLog2_one {n : Nat} (hn : n ≠ 0) : floorLog2 n 1 = Int.ofNat n.log2 := by
  have hlog : Nat.log2 1 = 0 := rfl
  have hle : ¬n < 2 ^ n.log2 := Nat.not_lt.2 (Nat.log2_self_le hn)
  unfold floorLog2
  simp [hlog, hle]

/-- With its carry a double is infinite when its exponent is too large, or when the carry makes it
so. -/
theorem exists_infinite_iff (negative : Bool) (m : Nat) (e : Int) :
    (∃ s, (match if m = 2 * leastNormal then (leastNormal, e + 1) else (m, e) with
      | (m, e) => if 971 < e then infinite negative else finite negative m e) = infinite s) ↔
      971 < e ∨ e = 971 ∧ m = 2 * leastNormal := by
  by_cases hm : m = 2 * leastNormal
  · rw [if_pos hm]
    dsimp only
    split
    · exact iff_of_true ⟨_, rfl⟩ (by omega)
    · exact iff_of_false (by simp) (by omega)
  · rw [if_neg hm]
    dsimp only
    split
    · next he => exact iff_of_true ⟨_, rfl⟩ (.inl he)
    · exact iff_of_false (by simp) (by omega)

/-- An integer is rounded to an infinite double exactly when it is too large. -/
theorem ofInt_eq_infinite_iff (n : Int) :
    (∃ negative, ofInt n = .infinite negative) ↔ bound ≤ n.natAbs := by
  unfold ofInt
  generalize n.natAbs = num
  generalize decide (n < 0) = negative
  unfold ofRatio
  by_cases hnum : num = 0
  · subst hnum
    rw [if_pos rfl]
    exact iff_of_false (by simp) (by unfold bound; omega)
  rw [if_neg hnum, floorLog2_one hnum]
  have hle : 2 ^ num.log2 ≤ num := Nat.log2_self_le hnum
  have hlt : num < 2 ^ (num.log2 + 1) := Nat.lt_log2_self
  generalize num.log2 = k at hle hlt
  have hmax : max (Int.ofNat k - 52) (-1074) = Int.ofNat k - 52 := by
    have hnat : (0 : Int) ≤ Int.ofNat k := Int.natCast_nonneg _
    omega
  dsimp only
  rw [hmax, exists_infinite_iff, Int.ofNat_eq_natCast]
  unfold bound
  rcases Nat.lt_trichotomy k 1023 with hk | hk | hk
  · -- The integer is below half of the next power of two.
    have hsmall := Nat.pow_le_pow_right Nat.two_pos hk
    exact iff_of_false (by omega) (by omega)
  · -- The mantissa is rounded to a number of at most 53 digits, and a carry makes it infinite.
    obtain ⟨j, hj⟩ : ∃ j, j = 970 := ⟨_, rfl⟩
    have hpow : 2 ^ j = 2 ^ 970 := by rw [hj]
    have htop : 2 ^ (k + 1) = 2 ^ 1024 := by rw [show k + 1 = 1024 by omega]
    have hexp : ((k : Int) - 52).toNat = j + 1 := by omega
    have hulp : 1 * Nat.pow 2 (j + 1) = 2 * 2 ^ j := (Nat.one_mul _).trans Nat.pow_succ'
    have hround : roundHalfEven num (2 * 2 ^ j) = 2 ^ 53 - 1 + 1 ↔
        (2 ^ 53 - 1) * (2 * 2 ^ j) + 2 ^ j ≤ num :=
      roundHalfEven_eq_iff (by omega) (by omega) (by decide)
    have hmantissa : 2 * leastNormal = 2 ^ 53 - 1 + 1 := by decide
    rw [if_pos (by omega), hexp, hulp, hmantissa, hround]
    omega
  · have hlarge := Nat.pow_le_pow_right Nat.two_pos hk
    exact iff_of_true (.inl (by omega)) (by omega)

end Number.Binary64

namespace Value

open Number (Binary64)

/-- The value is an integer that no double can hold. -/
def TooLarge (v : Value) : Prop := ∃ n : Int, v = .int n ∧ Binary64.bound ≤ n.natAbs

/-- A value cannot be read as a double although it is a number exactly when it is an integer that is
too large. -/
theorem toFloat_overflow_iff (v : Value) : v.toFloat = .error .overflow ↔ v.TooLarge := by
  unfold TooLarge
  cases v with
  | int n =>
    rw [toFloat]
    constructor
    · intro h
      split at h
      · next negative hinf => exact ⟨n, rfl, (Binary64.ofInt_eq_infinite_iff n).1 ⟨negative, hinf⟩⟩
      · cases h
    · rintro ⟨m, hm, hlarge⟩
      obtain rfl := Value.int.inj hm
      obtain ⟨negative, hinf⟩ := (Binary64.ofInt_eq_infinite_iff n).2 hlarge
      rw [hinf]
  | str _ | bytes _ =>
    rw [toFloat]
    constructor
    · intro h
      split at h <;> cases h
    · rintro ⟨m, hm, -⟩
      cases hm
  | _ =>
    constructor
    · intro h
      cases h
    · rintro ⟨m, hm, -⟩
      cases hm

end Value

end ParamCheck
