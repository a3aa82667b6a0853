import Mathlib.Data.List.Forall2
import ParamCheck.Check

/-!
# What masks find

The source of a mask is read back character by character: none of them, and no two neighbours, are taken for
anything else (`Mask.parse_source`). A search for it goes through all places of a text, and so a mask finds the
texts that have a part of its length in which every character is one that the mask has room for there
(`Mask.search_iff`).
-/

namespace ParamCheck

namespace Pattern

variable {items : List PatternItem} {cs : List Char}

/-- A run of exactly one character takes up the first character of a text. -/
theorem matchesItems_single (set : CharSet) (items : List PatternItem) (atStart : Bool) (cs : List Char) :
    matchesItems (.run set 1 (some 1) :: items) atStart cs = true ↔
      ∃ c rest, cs = c :: rest ∧ set.holds c = true ∧ matchesItems items false rest = true := by
  cases cs with
  | nil => simp [matchesItems]
  | cons c rest =>
    cases hc : set.holds c with
    | true => simp [matchesItems, hc, List.range_succ]
    | false => simp [matchesItems, hc]

/-- Characters of given sets, one after the other, match the texts that begin with such characters. -/
theorem matchesItems_singles (sets : List CharSet) (atStart : Bool) (cs : List Char) :
    matchesItems (sets.map fun set => .run set 1 (some 1)) atStart cs = true ↔
      ∃ window after, cs = window ++ after ∧ List.Forall₂ (fun set c => set.holds c = true) sets window := by
  induction sets generalizing atStart cs with
  | nil => simp [matchesItems]
  | cons set sets ih =>
    rw [List.map_cons, matchesItems_single]
    constructor
    · rintro ⟨c, rest, rfl, hc, hrest⟩
      obtain ⟨window, after, rfl, hwindow⟩ := (ih false rest).1 hrest
      exact ⟨c :: window, after, rfl, .cons hc hwindow⟩
    · rintro ⟨window, after, rfl, hwindow⟩
      cases hwindow with
      | @cons _ c _ window hc hwindow =>
        exact ⟨c, window ++ after, rfl, hc, (ih false _).2 ⟨window, after, rfl, hwindow⟩⟩

/-- Items that match wherever they stand are found if they match after some part of the text. -/
theorem searchItems_iff (h : ∀ atStart cs, matchesItems items atStart cs = matchesItems items false cs)
    (atStart : Bool) (cs : List Char) :
    searchItems items atStart cs = true ↔
      ∃ before rest, cs = before ++ rest ∧ matchesItems items false rest = true := by
  induction cs generalizing atStart with
  | nil => simp [searchItems, h atStart]
  | cons c cs ih =>
    rw [searchItems, Bool.or_eq_true, h atStart, ih false]
    constructor
    · rintro (hhere | ⟨before, rest, rfl, hlater⟩)
      · exact ⟨[], c :: cs, rfl, hhere⟩
      · exact ⟨c :: before, rest, rfl, hlater⟩
    · rintro ⟨before, rest, heq, hmatch⟩
      cases before with
      | nil =>
        obtain rfl : c :: cs = rest := heq
        exact .inl hmatch
      | cons d before =>
        obtain ⟨rfl, rfl⟩ := List.cons.inj heq
        exact .inr ⟨before, rest, rfl, hmatch⟩

end Pattern

namespace Mask

open Text

/-- Whether a mask has room for a character where it has the character `m` itself. -/
def admits (m c : Char) : Bool :=
  if m = '#' then isDecimal c else if m = 'X' then isAsciiLetter c else c = m

/-- The characters that a mask has room for where it has a given one. -/
def charSet (m : Char) : CharSet :=
  if m = '#' then .digit else if m = 'X' then .ranges [('a', 'z'), ('A', 'Z')] else .one m

/-- A part of a text is as long as the mask, and the mask has room for its characters in their order. -/
def Describes (mask window : List Char) : Prop := List.Forall₂ (fun m c => admits m c = true) mask window

theorem holds_charSet (m c : Char) : (charSet m).holds c = admits m c := by
  unfold charSet admits
  split
  · rfl
  · split
    · simp [CharSet.holds, isAsciiLetter]
    · rfl

/-- The characters that give a number of repetitions, divide branches or stand for an end of the text. -/
def signs : List Char := ['*', '+', '?', '\x7b', '|', '^', '$']

/-- The characters that mean something other than themselves. -/
def meaningful : List Char := '\\' :: '[' :: '.' :: '(' :: ')' :: signs

/-- A character that means something else has a backslash before it. -/
theorem not_mem_meaningful {m : Char} (h : needsEscape m = false) : m ∉ meaningful := by
  unfold needsEscape at h
  rw [String.contains_char_eq, decide_eq_false_iff_not] at h
  have hall : meaningful.all ("()[]\x7b\x7d?*+-|^$\\.&~\t\n\r\x0b\x0c".toList.contains ·) = true := by decide
  exact fun hm => h (List.contains_iff_mem.1 (List.all_eq_true.1 hall m hm))

/-- A character that has a backslash before it is no letter and no digit, which would have a meaning there. -/
theorem not_alphanumeric_of_needsEscape {m : Char} (h : needsEscape m = true) :
    (isAsciiLetter m || isAsciiDigit m) = false := by
  unfold needsEscape at h
  rw [String.contains_char_eq, decide_eq_true_eq] at h
  have hall : ("()[]\x7b\x7d?*+-|^$\\.&~\t\n\r\x0b\x0c".toList.all fun c =>
      !(isAsciiLetter c || isAsciiDigit c)) = true := by decide
  rw [← Bool.not_eq_true']
  exact List.all_eq_true.1 hall m h

/-- A character without a meaning stands for itself. -/
theorem takeSet_of_not_mem_meaningful {m : Char} (h : m ∉ meaningful) (rest : List Char) :
    Pattern.takeSet (m :: rest) = some (.one m, rest) := by
  have hnone : "\\*+?()|^$\x7b".contains m = false := by
    have hall : "\\*+?()|^$\x7b".toList.all (meaningful.contains ·) = true := by decide
    rw [String.contains_char_eq, decide_eq_false_iff_not]
    exact fun hm => h (List.contains_iff_mem.1 (List.all_eq_true.1 hall m hm))
  rw [Pattern.takeSet.eq_def]
  split
  · next heq => cases heq
  · next heq =>
    obtain rfl := (List.cons.inj heq).1
    exact absurd (by decide) h
  · next heq =>
    obtain rfl := (List.cons.inj heq).1
    exact absurd (by decide) h
  · next heq =>
    obtain rfl := (List.cons.inj heq).1
    exact absurd (by decide) h
  · next heq =>
    obtain rfl := (List.cons.inj heq).1
    exact absurd (by decide) h
  · next heq =>
    obtain ⟨rfl, rfl⟩ := List.cons.inj heq
    rw [if_neg (by simp only [hnone, Bool.false_eq_true, not_false_eq_true])]

/-- The source of a character is read as the characters that the mask has room for, whatever follows it. -/
theorem takeSet_charSource (m : Char) (rest : List Char) :
    Pattern.takeSet (charSource m ++ rest) = some (charSet m, rest) := by
  unfold charSource charSet
  split
  · rfl
  · split
    · rfl
    · split
      · next hescape =>
        have hclass := not_alphanumeric_of_needsEscape hescape
        have hd : m ≠ 'd' := by
          rintro rfl
          cases hclass
        rw [List.cons_append, List.cons_append, List.nil_append, Pattern.takeSet, if_neg (by simp [hclass])]
        exact hd
      · next hescape =>
        exact takeSet_of_not_mem_meaningful (not_mem_meaningful (Bool.not_eq_true _ ▸ hescape)) rest

/-- The source of a character does not begin with a sign. -/
theorem charSource_eq_cons (m : Char) : ∃ c rest, charSource m = c :: rest ∧ c ∉ signs := by
  unfold charSource
  split
  · exact ⟨_, _, rfl, by decide⟩
  · split
    · exact ⟨_, _, rfl, by decide⟩
    · split
      · exact ⟨_, _, rfl, by decide⟩
      · next hescape =>
        refine ⟨_, _, rfl, fun hsign => not_mem_meaningful (Bool.not_eq_true _ ▸ hescape) ?_⟩
        simp only [meaningful, List.mem_cons, hsign, or_true]

/-- What follows a character in a source is no number of repetitions. -/
theorem takeBounds_source (mask : List Char) :
    Pattern.takeBounds (source mask) = some ((1, some 1), source mask) := by
  cases mask with
  | nil => rfl
  | cons m mask =>
    obtain ⟨c, rest, hsource, hc⟩ := charSource_eq_cons m
    rw [source, List.flatMap_cons, hsource, List.cons_append]
    simp only [signs, List.mem_cons, List.not_mem_nil, or_false, not_or] at hc
    simp [Pattern.takeBounds, hc]

/-- A source is read back as one branch, with a run of one character for every character of the mask. -/
theorem parseWith_source (mask : List Char) :
    ∀ fuel, mask.length ≤ fuel →
      Pattern.parseWith fuel (source mask) = some [(mask.map charSet).map fun set => .run set 1 (some 1)] := by
  induction mask with
  | nil => exact fun fuel _ => by cases fuel <;> rfl
  | cons m mask ih =>
    intro fuel hfuel
    obtain ⟨fuel, rfl⟩ := Nat.exists_eq_succ_of_ne_zero (Nat.ne_zero_of_lt hfuel)
    have hread := takeSet_charSource m (source mask)
    obtain ⟨c, rest, hsource, hc⟩ := charSource_eq_cons m
    simp only [signs, List.mem_cons, List.not_mem_nil, or_false, not_or] at hc
    rw [source, List.flatMap_cons, ← source]
    rw [hsource, List.cons_append] at hread ⊢
    simp [Pattern.parseWith, hc, hread, takeBounds_source, ih fuel (by simpa using hfuel), Pattern.consItem]

/-- Every character of a mask has a source of at least one character. -/
theorem length_le_source (mask : List Char) : mask.length ≤ (source mask).length := by
  induction mask with
  | nil => exact Nat.le_refl 0
  | cons m mask ih =>
    obtain ⟨c, rest, hsource, -⟩ := charSource_eq_cons m
    rw [source, List.flatMap_cons, ← source, hsource, List.cons_append, List.length_cons, List.length_cons,
      List.length_append]
    omega

/-- The source of a mask is read back: it is one branch, with a run of one character for every character of the
mask. -/
theorem parse_source (mask : List Char) :
    Pattern.parse (source mask) = some [(mask.map charSet).map fun set => .run set 1 (some 1)] :=
  parseWith_source mask _ (length_le_source mask)

/-- A mask finds a text that has a part of its length in which every character is one that the mask has room for
there. -/
theorem search_iff (mask text : List Char) :
    search mask text = true ↔
      ∃ before window after, text = before ++ window ++ after ∧ Describes mask window := by
  have hitems : ∀ atStart cs,
      Pattern.matchesItems ((mask.map charSet).map fun set => .run set 1 (some 1)) atStart cs =
        Pattern.matchesItems ((mask.map charSet).map fun set => .run set 1 (some 1)) false cs := by
    intro atStart cs
    rw [Bool.eq_iff_iff, Pattern.matchesItems_singles, Pattern.matchesItems_singles]
  have hdescribes : ∀ window : List Char,
      List.Forall₂ (fun set c => CharSet.holds set c = true) (mask.map charSet) window ↔
        Describes mask window := by
    intro window
    rw [List.forall₂_map_left_iff]
    simp only [holds_charSet]
    rfl
  rw [search, Pattern.searchSource, parse_source]
  simp only [Pattern.search, List.any_cons, List.any_nil, Bool.or_false, Pattern.searchItems_iff hitems,
    Pattern.matchesItems_singles, hdescribes]
  constructor
  · rintro ⟨before, rest, rfl, window, after, rfl, h⟩
    exact ⟨before, window, after, (List.append_assoc ..).symm, h⟩
  · rintro ⟨before, window, after, rfl, h⟩
    exact ⟨before, window ++ after, List.append_assoc .., window, after, rfl, h⟩

end Mask

namespace BuiltinCheck

/-- The check for a mask is met by the values whose text has a part that the mask describes. For any other
value that has a text it fails with a message, which begins with the handle of the field. -/
theorem script_pattern_iff (search : PatternSearch) (mask : String) (v : Value) (f : Field)
    (scene : Scene) :
    (pattern.script search (.str mask) v f scene = .pass ↔
      ∃ text, v.write = .ok text ∧ ∃ before window after,
        text.toList = before ++ window ++ after ∧ Mask.Describes mask.toList window) ∧
    ∀ text handle, v.write = .ok text → f.handle.write = .ok handle →
      pattern.script search (.str mask) v f scene ≠ .pass →
        pattern.script search (.str mask) v f scene =
          .fail (handle ++ (" does not match the pattern " ++ mask)) := by
  have hdiffer : ∀ message, Script.fail message ≠ .pass := by
    intro message h
    cases congrArg Script.effects h
  cases hwrite : v.write with
  | error e =>
    have hscript : pattern.script search (.str mask) v f scene = { answer := .error e } := by
      simp only [script, checkPattern, Value.write_str, hwrite]
      rfl
    rw [hscript]
    refine ⟨iff_of_false (fun h => ?_) ?_, ?_⟩
    · cases congrArg Script.answer h
    · rintro ⟨text, htext, -⟩
      cases htext
    · rintro text handle htext
      cases htext
  | ok text =>
    have hscript : pattern.script search (.str mask) v f scene =
        if Mask.search mask.toList text.toList then .pass
        else .ofExcept (Script.failFor f (" does not match the pattern " ++ mask)) := by
      simp only [script, checkPattern, Value.write_str, hwrite, bind, Except.bind]
      split <;> rfl
    -- A failure is no pass, whether or not it can be told.
    have hfail : .ofExcept (Script.failFor f (" does not match the pattern " ++ mask)) ≠ Script.pass := by
      rw [Script.failFor]
      cases f.handle.write with
      | error e => exact fun h => by cases congrArg Script.answer h
      | ok handle => exact hdiffer _
    rw [hscript]
    refine ⟨?_, ?_⟩
    · have hwindow : (∃ t, (Except.ok text : Except Fault String) = .ok t ∧ ∃ before window after,
          t.toList = before ++ window ++ after ∧ Mask.Describes mask.toList window) ↔
            Mask.search mask.toList text.toList = true := by
        rw [Mask.search_iff]
        constructor
        · rintro ⟨t, ht, h⟩
          obtain rfl := Except.ok.inj ht
          exact h
        · exact fun h => ⟨text, rfl, h⟩
      rw [hwindow]
      split
      · next hfound => exact iff_of_true rfl hfound
      · next hmissing => exact iff_of_false hfail hmissing
    · intro t handle ht hhandle
      split
      · exact fun hne => absurd rfl hne
      · intro _
        rw [Script.failFor, hhandle]
        rfl

end BuiltinCheck

end ParamCheck
