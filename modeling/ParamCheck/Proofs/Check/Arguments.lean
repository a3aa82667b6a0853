import ParamCheck.Proofs.Check.Readable
import ParamCheck.Proofs.Number.Digits
import ParamCheck.Proofs.Number.Overflow

/-!
# Arguments of checks

A check whose argument is of the right form (`BuiltinCheck.WellFormed`) can read it whatever the value is, and
so it is carried out if what it may show can be written. The one exception is a limit on the value as a number,
if the value or the limit is an integer that no double can hold (`BuiltinCheck.Overflows`,
`BuiltinCheck.Legible.answers_iff`).
-/

namespace ParamCheck.BuiltinCheck

/-- A number in decimal, without a sign. -/
structure Decimal (cs : List Char) : Prop where
  ne_nil : cs ≠ []
  length_le : cs.length ≤ Number.maxDigits
  digits : ∀ c ∈ cs, Text.isAsciiDigit c = true

/-- A text, or a sequence of texts. -/
def Texts (argument : Value) : Prop :=
  (∃ s, argument = .str s) ∨
    ∃ ts : List String, argument = .list (ts.map .str) ∨ argument = .tuple (ts.map .str)

/-- A range of lengths: two numbers with a hyphen between them, or a pair of integers. -/
def Range (argument : Value) : Prop :=
  (∃ low high, argument = .str (String.ofList (low ++ '-' :: high)) ∧ Decimal low ∧ Decimal high) ∨
    ∃ low high, argument = .list [.int low, .int high] ∨ argument = .tuple [.int low, .int high]

/-- The argument has the form that a check asks for: a range for lengths, an integer for one length or
number of characters, a name of a field or several of them, the texts that are allowed, a mask, or a
number. -/
def WellFormed (c : BuiltinCheck) (argument : Value) : Prop :=
  match c with
  | between => Range argument
  | length | maxLength | minLength | classCount _ _ => ∃ n, argument = .int n
  | matchesField | pattern => ∃ s, argument = .str s
  | options | dependsOn => Texts argument
  | sum _ => (∃ n, argument = .int n) ∨ ∃ x, argument = .float x

/-- A check reads an integer that is too large as a number: the value, or the limit of a value that is
a number. -/
def Overflows (c : BuiltinCheck) (argument v : Value) : Prop :=
  match c with
  | sum _ => v.TooLarge ∨ (∃ x, v.toFloat = .ok x) ∧ argument.TooLarge
  | _ => False

/-- The bounds of a range stand before and after its hyphen, which is the first one if there are only digits
before it. -/
theorem bounds_hyphen {low : List Char} (hlow : ∀ c ∈ low, Text.isAsciiDigit c = true) (high : List Char) :
    bounds (.str (String.ofList (low ++ '-' :: high))) = do
      let l ← (Value.str (String.ofList low)).toInt
      let h ← (Value.str (String.ofList high)).toInt
      return (l, h) := by
  have hhyphen : ∀ c ∈ low, decide (c ≠ '-') = true := by
    intro c hc
    refine decide_eq_true fun heq => ?_
    have hdigit := hlow c hc
    rw [heq] at hdigit
    exact absurd hdigit (by decide)
  have hfirst : (low ++ '-' :: high).takeWhile (fun c => decide (c ≠ '-')) = low := by
    rw [List.takeWhile_append_of_pos hhyphen]
    simp
  have hrest : ((low ++ '-' :: high).dropWhile (fun c => decide (c ≠ '-'))).drop 1 = high := by
    rw [List.dropWhile_append_of_pos hhyphen]
    simp
  unfold bounds
  dsimp only
  rw [String.toList_ofList, hfirst, hrest]

/-- A range has bounds. -/
theorem Range.bounds {argument : Value} (h : Range argument) :
    ∃ low high, bounds argument = .ok (low, high) := by
  rcases h with ⟨low, high, rfl, hlow, hhigh⟩ | ⟨low, high, rfl | rfl⟩
  · have hread : ∀ {cs : List Char}, Decimal cs →
        ∃ n, (Value.str (String.ofList cs)).toInt = .ok n := by
      intro cs hcs
      have hnumber := Number.readInt?_of_isAsciiDigit hcs.ne_nil hcs.length_le hcs.digits
      unfold Value.toInt
      dsimp only
      rw [String.toList_ofList, hnumber]
      exact ⟨_, rfl⟩
    obtain ⟨n, hn⟩ := hread hlow
    obtain ⟨m, hm⟩ := hread hhigh
    refine ⟨n, m, ?_⟩
    rw [bounds_hyphen hlow.digits, hn, hm]
    rfl
  · exact ⟨low, high, rfl⟩
  · exact ⟨low, high, rfl⟩

/-- A text, or a sequence of texts, lists texts that are allowed. -/
theorem Texts.returns {argument : Value} (h : Texts argument) :
    ∃ texts, optionTexts argument = .ok texts := by
  have htexts : ∀ ts : List String,
      (ts.map Value.str).mapM Value.write = .ok ((ts.map Value.str).map Value.text) := by
    intro ts
    refine Value.mapM_write fun v hv => ?_
    obtain ⟨s, -, rfl⟩ := List.mem_map.1 hv
    rfl
  rcases h with ⟨s, rfl⟩ | ⟨ts, rfl | rfl⟩
  · exact ⟨_, rfl⟩
  · exact ⟨_, htexts ts⟩
  · exact ⟨_, htexts ts⟩

/-- A text, or a sequence of texts, lists texts. -/
theorem Texts.allTexts {argument : Value} (h : Texts argument) :
    ∀ name ∈ argument.toList, ∃ s, name = .str s := by
  have htexts : ∀ ts : List String, ∀ name ∈ ts.map Value.str, ∃ s, name = .str s := by
    intro ts name hname
    obtain ⟨s, -, rfl⟩ := List.mem_map.1 hname
    exact ⟨s, rfl⟩
  rcases h with ⟨s, rfl⟩ | ⟨ts, rfl | rfl⟩
  · exact fun name hname => ⟨s, List.mem_singleton.1 hname⟩
  · exact htexts ts
  · exact htexts ts

/-! ## Arguments of the right form -/

section

variable {argument v : Value}

/-- A check that is given an argument of the right form can read it, unless it reads an integer that is too
large as a number. -/
theorem WellFormed.readable_iff {c : BuiltinCheck} (h : c.WellFormed argument) (v : Value) :
    c.Readable argument v ↔ ¬c.Overflows argument v := by
  cases c with
  | between =>
    obtain ⟨low, high, hbounds⟩ := Range.bounds h
    refine iff_of_true ?_ not_false
    show (BuiltinCheck.bounds argument).isOk = true
    rw [hbounds]
    rfl
  | length =>
    obtain ⟨n, rfl⟩ := h
    exact iff_of_true (fun _ => rfl) not_false
  | maxLength | minLength | classCount k limit =>
    obtain ⟨n, rfl⟩ := h
    exact iff_of_true rfl not_false
  | matchesField =>
    obtain ⟨s, rfl⟩ := h
    exact iff_of_true rfl not_false
  | options =>
    obtain ⟨texts, htexts⟩ := Texts.returns h
    refine iff_of_true ?_ not_false
    show (optionTexts argument).isOk = true
    rw [htexts]
    rfl
  | pattern => exact iff_of_true trivial not_false
  | dependsOn =>
    refine iff_of_true (List.all_eq_true.2 fun name hname => ?_) not_false
    obtain ⟨s, rfl⟩ := Texts.allTexts h name hname
    rfl
  | sum limit =>
    show (sum limit).Readable argument v ↔ ¬(v.TooLarge ∨ (∃ x, v.toFloat = .ok x) ∧ argument.TooLarge)
    rw [← Value.toFloat_overflow_iff, ← Value.toFloat_overflow_iff]
    unfold Readable
    cases hv : v.toFloat with
    | error e => simp
    | ok x =>
      have hlimit : (∃ y, argument.toFloat = .ok y) ∨ argument.toFloat = .error .overflow := by
        rcases h with ⟨n, rfl⟩ | ⟨y, rfl⟩
        · rw [Value.toFloat]
          split
          · exact .inr rfl
          · exact .inl ⟨_, rfl⟩
        · exact .inl ⟨y, rfl⟩
      rcases hlimit with ⟨y, hy⟩ | hover
      · rw [hy]
        exact iff_of_true rfl (by simp)
      · rw [hover]
        exact iff_of_false Bool.false_ne_true (by simp)

/-- An argument of the right form can be shown if it can be written. -/
theorem WellFormed.showable {c : BuiltinCheck} (h : c.WellFormed argument)
    (hargument : argument.writable = true) : c.Showable argument where
  written := hargument
  count k limit n hc hn := by
    subst hc
    obtain ⟨m, rfl⟩ := h
    obtain rfl := Except.ok.inj hn
    exact hargument

/-- A check with an argument of the right form can be carried out, unless it reads an integer that is
too large as a number, if all that it may show can be written. -/
theorem Legible.answers_iff {f : Field} {scene : Scene} (h : Legible v f scene) (c : BuiltinCheck)
    (search : PatternSearch) (hform : c.WellFormed argument) (hargument : argument.writable = true) :
    c.answers search argument v f scene = true ↔ ¬c.Overflows argument v :=
  (h.answers_iff_readable c search (hform.showable hargument)).trans (hform.readable_iff v)

end

end ParamCheck.BuiltinCheck
