import Mathlib.Data.List.Basic
import ParamCheck.Proofs.Check.Arguments
import ParamCheck.Validator

/-!
# Arguments in two forms

The texts that are allowed can be given one by one or in one text with commas between them, and a range as a
pair of numbers or in one text with a hyphen between them. Both forms make the same check of it
(`BuiltinCheck.forms_agree`): a text is split at its commas into the texts that were put together
(`BuiltinCheck.splitComma_intercalate`), and the numbers around a hyphen are read back, unless they have more
digits than a number may be written with (`BuiltinCheck.bounds_hyphenated`).
-/

namespace ParamCheck.BuiltinCheck

/-! ## Texts between commas -/

/-- A text can stand between commas: there is none in it, and it does not begin with a blank, which would
count as the one after a comma. -/
structure Listable (t : List Char) : Prop where
  comma : ',' ∉ t
  start : ∀ c ∈ t.head?, Text.isBlank c = false

theorem splitComma_ne_nil (cs : List Char) : splitComma cs ≠ [] := by
  fun_cases splitComma cs <;> simp

/-- A character other than a comma goes to the first piece. -/
theorem splitComma_cons {c : Char} (h : c ≠ ',') (cs : List Char) :
    splitComma (c :: cs) = (splitComma cs).modifyHead (c :: ·) := by
  rw [splitComma, if_neg h]
  · split
    · next hnil => exact absurd hnil (splitComma_ne_nil cs)
    · next heq => rw [heq, List.modifyHead_cons]
  · exact fun _ _ hc => absurd hc h

/-- Characters other than commas go to the first piece. -/
theorem splitComma_append {t : List Char} (h : ',' ∉ t) (rest : List Char) :
    splitComma (t ++ rest) = (splitComma rest).modifyHead (t ++ ·) := by
  induction t with
  | nil =>
    rw [List.nil_append]
    cases splitComma rest <;> rfl
  | cons c t ih =>
    obtain ⟨hc, ht⟩ := not_or.1 (List.mem_cons.not.1 h)
    rw [List.cons_append, splitComma_cons (Ne.symm hc), ih ht]
    cases splitComma rest <;> rfl

/-- A new piece begins after a comma, or after the space that follows it, unless what comes then begins with a
blank. -/
theorem splitComma_separator {sep : List Char} (hsep : sep = [','] ∨ sep = [',', ' ']) {rest : List Char}
    (hrest : ∀ c ∈ rest.head?, Text.isBlank c = false) :
    splitComma (sep ++ rest) = [] :: splitComma rest := by
  rcases hsep with rfl | rfl
  · cases rest with
    | nil => rfl
    | cons c cs =>
      have hc : Text.isBlank c = false := hrest c rfl
      simp [splitComma, hc]
  · have hspace : Text.isBlank ' ' = true := by decide
    simp [splitComma, hspace]

/-- Texts that can stand between commas are joined to a text that begins with no blank: with the first of
them, or with a comma if that is empty. -/
theorem head_intercalate {sep : List Char} (hsep : sep = [','] ∨ sep = [',', ' ']) {ts : List (List Char)}
    (h : ∀ t ∈ ts, Listable t) : ∀ c ∈ (sep.intercalate ts).head?, Text.isBlank c = false := by
  have hcomma : ∀ rest, ∀ c ∈ (sep ++ rest).head?, Text.isBlank c = false := by
    rintro rest c hc
    obtain rfl : ',' = c := by rcases hsep with rfl | rfl <;> simpa using hc
    decide
  cases ts with
  | nil => simp
  | cons t ts =>
    have ht := (List.forall_mem_cons.1 h).1
    cases ts with
    | nil => simpa [List.intercalate_singleton] using ht.start
    | cons u us =>
      rw [List.intercalate_cons_cons, List.append_assoc]
      cases t with
      | nil => exact hcomma _
      | cons c t => simpa using ht.start

/-- Texts that can stand between commas are found again in the text that joins them. -/
theorem splitComma_intercalate {sep : List Char} (hsep : sep = [','] ∨ sep = [',', ' '])
    {ts : List (List Char)} (hne : ts ≠ []) (h : ∀ t ∈ ts, Listable t) :
    splitComma (sep.intercalate ts) = ts := by
  induction ts with
  | nil => exact absurd rfl hne
  | cons t ts ih =>
    obtain ⟨ht, hts⟩ := List.forall_mem_cons.1 h
    cases ts with
    | nil =>
      have hone := splitComma_append ht.comma []
      rw [List.append_nil] at hone
      rw [List.intercalate_singleton, hone]
      simp [splitComma]
    | cons u us =>
      have hrest := head_intercalate hsep hts
      rw [List.intercalate_cons_cons, List.append_assoc, splitComma_append ht.comma,
        splitComma_separator hsep hrest, ih (List.cons_ne_nil u us) hts, List.modifyHead_cons,
        List.append_nil]

/-- The texts that a text allows are those that it joins. -/
theorem optionTexts_intercalate {sep : String} (hsep : sep = "," ∨ sep = ", ") {texts : List String}
    (hne : texts ≠ []) (h : ∀ t ∈ texts, Listable t.toList) :
    optionTexts (.str (sep.intercalate texts)) = .ok texts := by
  have hchars : sep.toList = [','] ∨ sep.toList = [',', ' '] := by
    rcases hsep with rfl | rfl
    · exact .inl rfl
    · exact .inr rfl
  have hsplit : splitComma (sep.intercalate texts).toList = texts.map String.toList := by
    rw [String.toList_intercalate]
    exact splitComma_intercalate hchars (by simpa using hne) (List.forall_mem_map.2 h)
  rw [optionTexts, hsplit, List.map_map]
  refine congrArg Except.ok ?_
  exact (List.map_congr_left fun t _ => String.ofList_toList).trans (List.map_id texts)

/-- The texts that a sequence of texts allows are its items. -/
theorem optionTexts_list (texts : List String) : optionTexts (.list (texts.map .str)) = .ok texts := by
  show (texts.map Value.str).mapM Value.write = _
  have hwritable : ∀ v ∈ texts.map Value.str, v.writable = true := List.forall_mem_map.2 fun _ _ => rfl
  rw [Value.mapM_write hwritable, List.map_map]
  exact congrArg Except.ok ((List.map_congr_left fun t _ => rfl).trans (List.map_id texts))

/-! ## Numbers around a hyphen -/

/-- A range in one text. -/
def hyphenated (low high : Nat) : String :=
  String.ofList (Number.natDigits low ++ '-' :: Number.natDigits high)

/-- The text of a number stands for it, unless the number has more digits than it may be written with. -/
theorem toInt_natDigits (n : Nat) :
    (Value.str (String.ofList (Number.natDigits n))).toInt =
      if n < 10 ^ Number.maxDigits then .ok (Int.ofNat n) else .error .badValue := by
  have hlength : (Number.natDigits n).length ≤ Number.maxDigits ↔ n < 10 ^ Number.maxDigits :=
    Nat.length_toDigits_le_iff (by decide) (by decide)
  unfold Value.toInt
  dsimp only
  rw [String.toList_ofList, Number.readInt?_natDigits_eq]
  by_cases h : n < 10 ^ Number.maxDigits
  · rw [if_pos h, if_neg (Nat.not_lt.2 (hlength.2 h))]
  · rw [if_neg h, if_pos (Nat.not_le.1 (hlength.not.2 h))]

/-- The bounds of a range in one text are its numbers, unless one of them is too long. -/
theorem bounds_hyphenated (low high : Nat) :
    bounds (.str (hyphenated low high)) =
      if low < 10 ^ Number.maxDigits ∧ high < 10 ^ Number.maxDigits then .ok (Int.ofNat low, Int.ofNat high)
      else .error .badValue := by
  unfold hyphenated
  rw [bounds_hyphen fun c hc => Number.isAsciiDigit_of_mem_natDigits hc, toInt_natDigits, toInt_natDigits]
  -- The power is only compared, never computed.
  generalize 10 ^ Number.maxDigits = limit
  by_cases hlow : low < limit
  · by_cases hhigh : high < limit
    · rw [if_pos hlow, if_pos hhigh, if_pos ⟨hlow, hhigh⟩]
      rfl
    · have hboth : ¬(low < limit ∧ high < limit) := fun h => hhigh h.2
      rw [if_pos hlow, if_neg hhigh, if_neg hboth]
      rfl
  · have hboth : ¬(low < limit ∧ high < limit) := fun h => hlow h.1
    rw [if_neg hlow, if_neg hboth]
    rfl

/-- A number is written with its digits, unless it has too many. -/
theorem write_natCast {n : Nat} (h : n < 10 ^ Number.maxDigits) :
    (Value.int (Int.ofNat n)).write = .ok (String.ofList (Number.natDigits n)) := by
  have hsign : ¬Int.ofNat n < 0 := Int.not_lt.2 (Int.natCast_nonneg n)
  refine Value.write_eq_ok_iff.2 ⟨Value.writable_of_lt h, ?_⟩
  show String.ofList (Number.intText (Int.ofNat n)) = _
  rw [Number.intText, if_neg hsign]
  rfl

/-- A pair of numbers is shown as the range in one text is. -/
theorem rangeText_pair {low high : Nat} (hlow : low < 10 ^ Number.maxDigits)
    (hhigh : high < 10 ^ Number.maxDigits) :
    (do return (← (Value.int (Int.ofNat low)).write) ++ "-" ++ (← (Value.int (Int.ofNat high)).write) :
      Except Fault String) = .ok (hyphenated low high) := by
  rw [write_natCast hlow, write_natCast hhigh]
  refine congrArg Except.ok ?_
  unfold hyphenated
  rw [← String.toList_inj]
  simp

/-! ## Two forms of one argument -/

/-- A check does the same with either of two arguments: in a run, and if it is called for its own sake. It can
be carried out with them unless the value or the handle of the field cannot be written. -/
structure Interchangeable (c : BuiltinCheck) (argument other : Value) : Prop where
  decided : ∀ (search : PatternSearch) (v : Value) (f : Field) scene, v.writable = true →
    f.handle.writable = true → c.script search argument v f scene = .pass ∨
      ∃ message, c.script search argument v f scene = .fail message
  same : ∀ search v f scene, c.script search argument v f scene = c.script search other v f scene
  called : ∀ hooks (w : Validator) v f,
    w.callCheck hooks (.builtin c) argument v f = w.callCheck hooks (.builtin c) other v f

/-- Two arguments are interchangeable if the check can be carried out with one and does the same with the other
wherever it is made. -/
theorem Interchangeable.of_script {c : BuiltinCheck} {argument other : Value}
    (decided : ∀ (search : PatternSearch) (v : Value) (f : Field) scene, v.writable = true →
      f.handle.writable = true → c.script search argument v f scene = .pass ∨
        ∃ message, c.script search argument v f scene = .fail message)
    (same : ∀ search v f scene, c.script search argument v f scene = c.script search other v f scene) :
    Interchangeable c argument other := by
  refine ⟨decided, same, fun hooks w v f => ?_⟩
  have hscript : (Check.builtin c).script hooks argument v f w.view =
      (Check.builtin c).script hooks other v f w.view := same hooks.search v f w.view.toScene
  unfold Validator.callCheck
  rw [hscript]

/-- The check for texts depends on those that its argument lists. -/
theorem interchangeable_options {argument other : Value} {texts : List String}
    (h : optionTexts argument = .ok texts) (hother : optionTexts other = .ok texts) :
    Interchangeable .options argument other := by
  refine .of_script (fun search v f scene hv hf => ?_) fun search v f scene => ?_
  · simp only [script, checkOptions, h, Value.write_of_writable hv, failFor_of_writable hf, bind,
      Except.bind]
    split
    · exact .inl rfl
    · exact .inr ⟨_, rfl⟩
  · simp only [script, checkOptions, h, hother]

/-- The check for a range depends on its bounds and on how it is shown. -/
theorem interchangeable_between {argument other : Value} {bound : Int × Int} {text : String}
    (h : bounds argument = .ok bound) (hother : bounds other = .ok bound)
    (htext : rangeText argument = .ok text) (hothertext : rangeText other = .ok text) :
    Interchangeable .between argument other := by
  refine .of_script (fun search v f scene hv hf => ?_) fun search v f scene => ?_
  · simp only [script, checkBetween, size, h, htext, Value.write_of_writable hv, failFor_of_writable hf,
      bind, Except.bind, pure, Except.pure]
    split
    · exact .inr ⟨_, rfl⟩
    · exact .inl rfl
  · simp only [script, checkBetween, h, hother, htext, hothertext]

/-- A range whose bounds cannot be read cannot be checked. -/
theorem script_between_of_error {argument : Value} {e : Fault} (h : bounds argument = .error e)
    (search : PatternSearch) (v : Value) (f : Field) (scene : Scene) :
    between.script search argument v f scene = { answer := .error e } := by
  simp only [script, checkBetween, h]
  rfl

/-- Texts that can stand between commas, one by one or joined with commas, are interchangeable, and so are two
numbers, as a pair or in one text, if they have no more digits than a number may be written with. With a longer
number the one text is no range. -/
theorem forms_agree :
    (∀ (sep : String) (texts : List String), sep = "," ∨ sep = ", " → texts ≠ [] →
      (∀ t ∈ texts, Listable t.toList) →
      Interchangeable .options (.str (sep.intercalate texts)) (.list (texts.map .str))) ∧
    (∀ low high : Nat, low < 10 ^ Number.maxDigits → high < 10 ^ Number.maxDigits →
      Interchangeable .between (.str (hyphenated low high)) (.tuple [.int low, .int high]) ∧
      Interchangeable .between (.str (hyphenated low high)) (.list [.int low, .int high])) ∧
    ∀ low high : Nat, ¬(low < 10 ^ Number.maxDigits ∧ high < 10 ^ Number.maxDigits) → ∀ search v f scene,
      between.script search (.str (hyphenated low high)) v f scene = { answer := .error .badValue } := by
  refine ⟨fun sep texts hsep hne h => ?_, fun low high hlow hhigh => ?_,
    fun low high hlong search v f scene => ?_⟩
  · exact interchangeable_options (optionTexts_intercalate hsep hne h) (optionTexts_list texts)
  · have hbounds := bounds_hyphenated low high
    rw [if_pos ⟨hlow, hhigh⟩] at hbounds
    have htext : rangeText (.tuple [.int low, .int high]) = .ok (hyphenated low high) :=
      rangeText_pair hlow hhigh
    exact ⟨interchangeable_between hbounds rfl rfl htext, interchangeable_between hbounds rfl rfl htext⟩
  · have hbounds := bounds_hyphenated low high
    rw [if_neg hlong] at hbounds
    exact script_between_of_error hbounds search v f scene

/-- An empty text can stand between others, and a range from zero to nine is a range. -/
theorem forms_agree_short :
    Interchangeable .options (.str (", ".intercalate ["a", "", "b "])) (.list [.str "a", .str "", .str "b "]) ∧
      Interchangeable .between (.str "0-9") (.tuple [.int 0, .int 9]) := by
  have hchars : ∀ t ∈ ["a", "", "b "], t.toList.contains ',' = false ∧
      t.toList.head?.all (!Text.isBlank ·) = true := by decide
  have hlistable : ∀ t ∈ ["a", "", "b "], Listable t.toList := by
    intro t ht
    obtain ⟨hcomma, hstart⟩ := hchars t ht
    refine ⟨fun hmem => ?_, fun c hc => ?_⟩
    · rw [List.contains_iff_mem.2 hmem] at hcomma
      cases hcomma
    · rw [← Bool.not_eq_true']
      exact (Option.all_eq_true _ _).1 hstart c hc
  have hnine : (9 : Nat) < 10 ^ Number.maxDigits := by
    calc 9 < 10 ^ 1 := by decide
      _ ≤ 10 ^ Number.maxDigits := Nat.pow_le_pow_right (by decide) (by decide)
  exact ⟨forms_agree.1 ", " ["a", "", "b "] (.inr rfl) (by decide) hlistable,
    (forms_agree.2.1 0 9 (Nat.lt_trans (by decide) hnine) hnine).1⟩

/-- A range up to a number of one digit too many admits the text `x` as a pair, and cannot be read as one
text. -/
theorem not_forms_agree : ¬∀ low high : Nat, ∀ search v f scene,
    between.script search (.str (hyphenated low high)) v f scene =
      between.script search (.tuple [.int low, .int high]) v f scene := by
  intro h
  have hsame := h 0 (10 ^ Number.maxDigits) (fun _ _ _ => false) (.str "x") default ⟨[], []⟩
  have hlong : ¬((0 : Nat) < 10 ^ Number.maxDigits ∧ 10 ^ Number.maxDigits < 10 ^ Number.maxDigits) :=
    fun hshort => Nat.lt_irrefl _ hshort.2
  have hread := bounds_hyphenated 0 (10 ^ Number.maxDigits)
  rw [if_neg hlong] at hread
  have hadmits : ∀ high : Nat, 1 ≤ high → checkBetween (.tuple [.int (0 : Nat), .int high]) (.str "x")
      default = .ok .pass := by
    intro high hhigh
    have hwithin : ¬(Int.ofNat 1 ≠ 0 ∧ ¬((0 : Nat) ≤ Int.ofNat 1 ∧ Int.ofNat 1 ≤ high)) :=
      fun hout => hout.2 ⟨by decide, Int.ofNat_le.2 hhigh⟩
    exact if_neg hwithin
  rw [script_between_of_error hread, script, hadmits _ (Nat.one_le_pow _ _ (by decide))] at hsame
  cases hsame

end ParamCheck.BuiltinCheck
