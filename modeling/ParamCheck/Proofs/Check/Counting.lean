import ParamCheck.Check
import ParamCheck.Proofs.Number.Digits

/-!
# The classes of characters that are counted

Letters, digits, symbols and blanks take up a text between them, but not always once: the digits that are
counted are those of every script, and the symbols leave out those of ASCII alone, so that a digit of another
script is counted as both (`CharClass.memberships_eq`). The counts of a text are therefore too large by the
number of such digits, and by no more (`CharClass.count_add_count_add_count`).
-/

namespace ParamCheck.Text

variable {c : Char}

/-- Whether a character is a decimal digit of another script than that of ASCII. -/
def isForeignDigit (c : Char) : Bool := isDecimal c && !isAsciiDigit c

/-- A character is a decimal digit if it comes less than ten characters after a zero. -/
theorem isDecimal_iff : isDecimal c = true ↔ ∃ z ∈ zeros, z ≤ c.toNat ∧ c.toNat < z + 10 := by
  unfold isDecimal digitValue?
  rw [Option.isSome_map, List.find?_isSome]
  simp only [Bool.and_eq_true, decide_eq_true_eq]

/-- The letters of ASCII lie in the second half of its code points. -/
theorem toNat_of_isAsciiLetter (h : isAsciiLetter c = true) : 0x41 ≤ c.toNat ∧ c.toNat < 0x80 := by
  unfold isAsciiLetter at h
  simp only [Bool.or_eq_true, Bool.and_eq_true, decide_eq_true_eq, Char.le_def] at h
  rcases h with ⟨hlow, hhigh⟩ | ⟨hlow, hhigh⟩
  · have ha : 0x61 ≤ c.toNat := UInt32.le_iff_toNat_le.1 hlow
    have hz : c.toNat ≤ 0x7A := UInt32.le_iff_toNat_le.1 hhigh
    omega
  · have hA : 0x41 ≤ c.toNat := UInt32.le_iff_toNat_le.1 hlow
    have hZ : c.toNat ≤ 0x5A := UInt32.le_iff_toNat_le.1 hhigh
    omega

/-- The digits of ASCII are decimal digits. -/
theorem isDecimal_of_isAsciiDigit (h : isAsciiDigit c = true) : isDecimal c = true := by
  rw [isDecimal, Number.digitValue?_of_isAsciiDigit h]
  rfl

/-- No letter of ASCII is a decimal digit: past the digits of ASCII there is none below the Arabic ones. -/
theorem isDecimal_of_isAsciiLetter (h : isAsciiLetter c = true) : isDecimal c = false := by
  have hzeros : ∀ z ∈ zeros, z = 0x30 ∨ 0x660 ≤ z := by decide
  rw [← Bool.not_eq_true, isDecimal_iff]
  rintro ⟨z, hz, hle, hlt⟩
  have hletter := toNat_of_isAsciiLetter h
  have hzero := hzeros z hz
  omega

/-- No letter of ASCII is blank. -/
theorem isBlank_of_isAsciiLetter (h : isAsciiLetter c = true) : isBlank c = false := by
  have hranges : ∀ n < 0x80, 0x41 ≤ n → blankRanges.contains n = false := by decide
  obtain ⟨hlow, hhigh⟩ := toNat_of_isAsciiLetter h
  exact hranges c.toNat hhigh hlow

/-- No decimal digit is blank, of whatever script it is. -/
theorem isBlank_of_isDecimal (h : isDecimal c = true) : isBlank c = false := by
  have hsorted : blankRanges.Sorted := by decide
  have happart : ∀ z ∈ zeros, ∀ r ∈ blankRanges, z + 10 ≤ r.1 ∨ r.2 < z := by decide
  obtain ⟨z, hz, hle, hlt⟩ := isDecimal_iff.1 h
  rw [isBlank, ← Bool.not_eq_true, Ranges.contains_iff hsorted]
  rintro ⟨r, hr, hfirst, hlast⟩
  have hrange := happart z hz r hr
  omega

end ParamCheck.Text

namespace ParamCheck.CharClass

open Text

/-- The number of classes to which a character belongs, the blanks being one of them. -/
def memberships (c : Char) : Nat :=
  (alpha.holds c).toNat + (digits.holds c).toNat + (symbols.holds c).toNat + (isBlank c).toNat

/-- Every character belongs to one class, and a digit of another script to two. -/
theorem memberships_eq (c : Char) : memberships c = 1 + (isForeignDigit c).toNat := by
  unfold memberships isForeignDigit
  simp only [holds]
  cases hletter : isAsciiLetter c with
  | true =>
    rw [isDecimal_of_isAsciiLetter hletter, isBlank_of_isAsciiLetter hletter]
    rfl
  | false =>
    cases hdecimal : isDecimal c with
    | true =>
      rw [isBlank_of_isDecimal hdecimal]
      cases isAsciiDigit c <;> rfl
    | false =>
      have hascii : isAsciiDigit c = false := by
        cases hdigit : isAsciiDigit c with
        | true => exact absurd (isDecimal_of_isAsciiDigit hdigit) (by simp [hdecimal])
        | false => rfl
      rw [hascii]
      cases isBlank c <;> rfl

/-- A letter belongs to no other class, and what is both a digit and a symbol is a digit of another script. -/
theorem holds_and_holds_iff {k l : CharClass} (hne : k ≠ l) (c : Char) :
    (k.holds c = true ∧ l.holds c = true) ↔
      isForeignDigit c = true ∧ (k = digits ∧ l = symbols ∨ k = symbols ∧ l = digits) := by
  have halpha : ∀ m, m ≠ alpha → ¬(alpha.holds c = true ∧ m.holds c = true) := by
    rintro m hm ⟨hletter, hother⟩
    change isAsciiLetter c = true at hletter
    cases m with
    | alpha => exact hm rfl
    | digits =>
      change isDecimal c = true at hother
      rw [isDecimal_of_isAsciiLetter hletter] at hother
      cases hother
    | symbols =>
      simp only [holds, hletter, Bool.true_or, Bool.not_true] at hother
      cases hother
  have hdigits : (digits.holds c = true ∧ symbols.holds c = true) ↔ isForeignDigit c = true := by
    simp only [holds, isForeignDigit, Bool.and_eq_true]
    refine and_congr_right fun hdecimal => ?_
    have hletter : isAsciiLetter c = false := by
      rw [← Bool.not_eq_true]
      intro h
      rw [isDecimal_of_isAsciiLetter h] at hdecimal
      cases hdecimal
    rw [hletter, isBlank_of_isDecimal hdecimal, Bool.false_or, Bool.or_false]
  cases k with
  | alpha => exact iff_of_false (halpha l hne.symm) (by simp)
  | digits =>
    cases l with
    | alpha => exact iff_of_false (fun h => halpha digits hne h.symm) (by simp)
    | digits => exact absurd rfl hne
    | symbols => simpa using hdigits
  | symbols =>
    cases l with
    | alpha => exact iff_of_false (fun h => halpha symbols hne h.symm) (by simp)
    | digits => simpa [and_comm] using hdigits
    | symbols => exact absurd rfl hne

/-- The counts of a text add up to its length, but that digits of other scripts are counted twice. -/
theorem count_add_count_add_count (cs : List Char) :
    alpha.count cs + digits.count cs + symbols.count cs + cs.countP isBlank =
      cs.length + cs.countP isForeignDigit := by
  have hone : ∀ (p : Char → Bool) (c : Char) (cs : List Char),
      (c :: cs).countP p = cs.countP p + (p c).toNat := by
    intro p c cs
    rw [List.countP_cons]
    cases p c <;> rfl
  induction cs with
  | nil => rfl
  | cons c cs ih =>
    have hc := memberships_eq c
    unfold memberships at hc
    unfold count at ih ⊢
    rw [hone, hone, hone, hone, hone, List.length_cons]
    omega

/-- The counts of a text add up to its length and the number of its digits of other scripts. A character of it
is counted in two classes if it is such a digit, and then as a digit and as a symbol. -/
theorem counts_eq_length_add (cs : List Char) :
    (alpha.count cs + digits.count cs + symbols.count cs + cs.countP isBlank =
      cs.length + cs.countP isForeignDigit) ∧
    ∀ c ∈ cs, ∀ k l : CharClass, k ≠ l →
      ((k.holds c = true ∧ l.holds c = true) ↔
        isForeignDigit c = true ∧ (k = digits ∧ l = symbols ∨ k = symbols ∧ l = digits)) :=
  ⟨count_add_count_add_count cs, fun c _ _ _ hne => holds_and_holds_iff hne c⟩

/-- Of a letter, a space and the Arabic digit three, the digit is counted with the digits and with the
symbols. -/
theorem counts_eq_length_add_arabic :
    alpha.count ['a', ' ', Char.ofNat 0x663] + digits.count ['a', ' ', Char.ofNat 0x663] +
        symbols.count ['a', ' ', Char.ofNat 0x663] + ['a', ' ', Char.ofNat 0x663].countP isBlank = 4 ∧
      digits.holds (Char.ofNat 0x663) = true ∧ symbols.holds (Char.ofNat 0x663) = true := by
  obtain ⟨hsum, hboth⟩ := counts_eq_length_add ['a', ' ', Char.ofNat 0x663]
  have hmem : Char.ofNat 0x663 ∈ ['a', ' ', Char.ofNat 0x663] := by decide
  have hforeign : isForeignDigit (Char.ofNat 0x663) = true := by decide
  exact ⟨hsum.trans (by decide), (hboth _ hmem digits symbols (by decide)).2 ⟨hforeign, .inl ⟨rfl, rfl⟩⟩⟩

/-- The counts of the Arabic digit three add up to two. -/
theorem not_counts_eq_length : ¬∀ cs : List Char,
    alpha.count cs + digits.count cs + symbols.count cs + cs.countP isBlank = cs.length := by
  intro h
  exact absurd (h [Char.ofNat 0x663]) (by decide)

end ParamCheck.CharClass
