import Mathlib.Data.List.DropRight
import Mathlib.Tactic.Common
import ParamCheck.Text.Blank

/-!
# Words and the blanks between them

What is trimmed at both ends stays trimmed (`trim_trim`). A text whose runs of blank characters become
single spaces and that is trimmed is its words with single spaces between them (`trim_collapse`), and a text
that is put together in this way is split into the words it was made of (`splitBlank_intercalate`).
-/

namespace ParamCheck.Text

variable {c d : Char} {cs w : List Char} {ws : List (List Char)}

/-! ## Both ends -/

theorem trimEnd_nil : trimEnd [] = [] := rfl

/-- A character is trimmed at the end if it is blank and nothing is left behind it. -/
theorem trimEnd_cons (c : Char) (cs : List Char) :
    trimEnd (c :: cs) = if isBlank c = true ∧ trimEnd cs = [] then [] else c :: trimEnd cs := by
  unfold trimEnd
  rw [List.reverse_cons, List.dropWhile_append]
  by_cases hrest : List.dropWhile isBlank cs.reverse = []
  · by_cases hc : isBlank c = true
    · simp [hrest, hc]
    · simp [hrest, hc]
  · simp [hrest]

theorem trimEnd_cons_of_not_blank (h : isBlank c = false) : trimEnd (c :: cs) = c :: trimEnd cs := by
  rw [trimEnd_cons, if_neg (by simp [h])]

theorem trimStart_cons_of_blank (h : isBlank c = true) : trimStart (c :: cs) = trimStart cs :=
  List.dropWhile_cons_of_pos h

theorem trimStart_cons_of_not_blank (h : isBlank c = false) : trimStart (c :: cs) = c :: cs :=
  List.dropWhile_cons_of_neg (by simp [h])

/-- It makes no difference which end is trimmed first. -/
theorem trimStart_trimEnd (cs : List Char) : trimStart (trimEnd cs) = trimEnd (trimStart cs) := by
  induction cs with
  | nil => rfl
  | cons c cs ih =>
    cases hc : isBlank c with
    | true =>
      rw [trimStart_cons_of_blank hc, ← ih, trimEnd_cons]
      by_cases hrest : trimEnd cs = []
      · rw [if_pos ⟨hc, hrest⟩, hrest]
      · rw [if_neg fun h => hrest h.2, trimStart_cons_of_blank hc]
    | false =>
      rw [trimEnd_cons_of_not_blank hc, trimStart_cons_of_not_blank hc,
        trimStart_cons_of_not_blank hc, trimEnd_cons_of_not_blank hc]

/-- What is trimmed at both ends stays trimmed. -/
theorem trim_trim (cs : List Char) : trim (trim cs) = trim cs := by
  have hstart : trimStart (trimStart cs) = trimStart cs := List.dropWhile_idempotent isBlank cs
  have hend : trimEnd (trimEnd (trimStart cs)) = trimEnd (trimStart cs) :=
    List.rdropWhile_idempotent isBlank (trimStart cs)
  unfold trim
  rw [trimStart_trimEnd, hstart, hend]

/-! ## Words -/

theorem splitBlank_cons_of_blank (h : isBlank c = true) :
    splitBlank (c :: cs) = [] :: splitBlank cs := by
  rw [splitBlank, List.splitOnP_cons_eq_if_modifyHead, if_pos h]
  rfl

theorem splitBlank_cons_of_not_blank (h : isBlank c = false) :
    splitBlank (c :: cs) = (splitBlank cs).modifyHead (c :: ·) := by
  rw [splitBlank, List.splitOnP_cons_eq_if_modifyHead, if_neg (by simp [h])]
  rfl

theorem splitBlank_ne_nil (cs : List Char) : splitBlank cs ≠ [] := List.splitOnP_ne_nil isBlank cs

/-- The pieces between blank characters are made of the other characters of the text. -/
theorem mem_of_mem_splitBlank (hw : w ∈ splitBlank cs) (hc : c ∈ w) : c ∈ cs ∧ isBlank c = false := by
  induction cs generalizing w with
  | nil =>
    obtain rfl := List.mem_singleton.1 hw
    cases hc
  | cons d cs ih =>
    have hlater : w ∈ splitBlank cs → c ∈ d :: cs ∧ isBlank c = false := fun hw =>
      (ih hw hc).imp_left (List.mem_cons_of_mem d)
    cases hd : isBlank d with
    | true =>
      rw [splitBlank_cons_of_blank hd, List.mem_cons] at hw
      obtain rfl | hw := hw
      · cases hc
      · exact hlater hw
    | false =>
      obtain ⟨v, vs, hsplit⟩ := List.exists_cons_of_ne_nil (splitBlank_ne_nil cs)
      rw [splitBlank_cons_of_not_blank hd, hsplit, List.modifyHead_cons, List.mem_cons] at hw
      rw [hsplit] at ih hlater
      obtain rfl | hw := hw
      · obtain rfl | hc := List.mem_cons.1 hc
        · exact ⟨List.mem_cons_self, hd⟩
        · exact (ih List.mem_cons_self hc).imp_left (List.mem_cons_of_mem d)
      · exact hlater (List.mem_cons_of_mem v hw)

theorem isBlank_of_mem_words (hw : w ∈ words cs) (hc : c ∈ w) : isBlank c = false :=
  (mem_of_mem_splitBlank (List.mem_of_mem_filter hw) hc).2

theorem ne_nil_of_mem_words (hw : w ∈ words cs) : w ≠ [] :=
  of_decide_eq_true (List.mem_filter.1 hw).2

/-- Pieces without blank characters that are joined by spaces come apart again. -/
theorem splitBlank_intercalate (hne : ws ≠ []) (h : ∀ w ∈ ws, ∀ c ∈ w, isBlank c = false) :
    splitBlank ([' '].intercalate ws) = ws := by
  induction ws with
  | nil => exact absurd rfl hne
  | cons w rest ih =>
    rw [List.forall_mem_cons] at h
    cases rest with
    | nil =>
      rw [List.intercalate_singleton]
      exact List.splitOnP_eq_singleton h.1
    | cons v rest =>
      rw [List.intercalate_cons_cons, List.append_assoc]
      exact (List.splitOnP_append_cons_of_forall_mem h.1 ' ' (by decide) _).trans
        (congrArg (w :: ·) (ih (List.cons_ne_nil v rest) h.2))

/-- What is joined by spaces is equal if the pieces are. -/
theorem intercalate_inj {vs : List (List Char)} (hempty : ws = [] ↔ vs = [])
    (hws : ∀ w ∈ ws, ∀ c ∈ w, isBlank c = false) (hvs : ∀ v ∈ vs, ∀ c ∈ v, isBlank c = false) :
    [' '].intercalate ws = [' '].intercalate vs ↔ ws = vs := by
  refine ⟨fun h => ?_, fun h => by rw [h]⟩
  by_cases hne : ws = []
  · rw [hne, hempty.1 hne]
  · rw [← splitBlank_intercalate hne hws, h, splitBlank_intercalate (fun hnil => hne (hempty.2 hnil)) hvs]

/-- Words that are joined by spaces come apart again. -/
theorem words_intercalate (h : ∀ w ∈ ws, w ≠ [] ∧ ∀ c ∈ w, isBlank c = false) :
    words ([' '].intercalate ws) = ws := by
  by_cases hne : ws = []
  · rw [hne]
    rfl
  · rw [words, splitBlank_intercalate hne fun w hw => (h w hw).2]
    exact List.filter_eq_self.2 fun w hw => decide_eq_true (h w hw).1

theorem words_nil : words [] = [] := rfl

theorem words_cons_of_blank (h : isBlank c = true) : words (c :: cs) = words cs := by
  rw [words, splitBlank_cons_of_blank h]
  rfl

/-- A character before a blank one, or at the end of the text, is a word by itself. -/
theorem words_cons_of_stop (hc : isBlank c = false) (hstop : ∀ d ∈ cs.head?, isBlank d = true) :
    words (c :: cs) = [c] :: words cs := by
  cases cs with
  | nil =>
    rw [words, splitBlank_cons_of_not_blank hc]
    rfl
  | cons d cs =>
    have hd : isBlank d = true := hstop d rfl
    rw [words_cons_of_blank hd, words, splitBlank_cons_of_not_blank hc, splitBlank_cons_of_blank hd]
    rfl

/-- A word begins with the first character that is not blank. -/
theorem words_cons_of_not_blank (h : isBlank c = false) (cs : List Char) :
    ∃ w ws, words (c :: cs) = (c :: w) :: ws := by
  obtain ⟨v, vs, hsplit⟩ := List.exists_cons_of_ne_nil (splitBlank_ne_nil cs)
  rw [words, splitBlank_cons_of_not_blank h, hsplit]
  exact ⟨v, vs.filter (· ≠ []), rfl⟩

/-- A word goes on with the next character that is not blank. -/
theorem words_cons_cons_of_not_blank (hc : isBlank c = false) (hd : isBlank d = false) :
    words (c :: d :: cs) = (words (d :: cs)).modifyHead (c :: ·) := by
  obtain ⟨v, vs, hsplit⟩ := List.exists_cons_of_ne_nil (splitBlank_ne_nil cs)
  unfold words
  rw [splitBlank_cons_of_not_blank hc, splitBlank_cons_of_not_blank hd, hsplit]
  rfl

theorem collapse_cons_of_not_blank (h : isBlank c = false) : collapse (c :: cs) = c :: collapse cs := by
  cases cs <;> simp [collapse, h]

theorem collapse_cons_cons_of_blank (hc : isBlank c = true) :
    collapse (c :: d :: cs) =
      if isBlank d = true then collapse (d :: cs) else ' ' :: collapse (d :: cs) := by
  rw [collapse, if_pos hc]

/-- With single spaces for runs of blank characters, and without blanks at the end, a text is its words,
after a space if the text begins with a blank and is more than that. -/
theorem trimEnd_collapse (cs : List Char) :
    trimEnd (collapse cs) =
      if words cs ≠ [] ∧ cs.head?.any isBlank = true then ' ' :: [' '].intercalate (words cs)
      else [' '].intercalate (words cs) := by
  have hspace : isBlank ' ' = true := by decide
  induction cs with
  | nil => rfl
  | cons c cs ih =>
    rcases cs with _ | ⟨d, cs⟩
    · cases hc : isBlank c with
      | true => simp [collapse, hc, words_cons_of_blank hc, words_nil, trimEnd_cons, trimEnd_nil, hspace]
      | false =>
        have hword : words [c] = [[c]] := words_cons_of_stop hc (by simp)
        simp [collapse, hc, hword, trimEnd_cons, trimEnd_nil]
    · cases hc : isBlank c with
      | true =>
        rw [collapse_cons_cons_of_blank hc, words_cons_of_blank hc]
        cases hd : isBlank d with
        | true =>
          rw [if_pos rfl, ih]
          simp [hc, hd]
        | false =>
          -- The space stays, since a word comes behind it.
          obtain ⟨w, rest, hwords⟩ := words_cons_of_not_blank hd cs
          rw [if_neg (by simp), trimEnd_cons, ih, hwords]
          simp [hc, hd]
      | false =>
        rw [collapse_cons_of_not_blank hc, trimEnd_cons_of_not_blank hc, ih]
        cases hd : isBlank d with
        | true =>
          rw [words_cons_of_stop hc (by simpa using hd), words_cons_of_blank hd]
          by_cases hrest : words cs = []
          · simp [hrest, hc]
          · simp [hrest, hc, hd, List.intercalate_cons_of_ne_nil hrest]
        | false =>
          obtain ⟨w, rest, hwords⟩ := words_cons_of_not_blank hd cs
          rw [words_cons_cons_of_not_blank hc hd, hwords]
          simp [hc, hd]

/-- A text without blanks at its ends and with single spaces for runs of blank characters is its words with
single spaces between them. -/
theorem trim_collapse (cs : List Char) : trim (collapse cs) = [' '].intercalate (words cs) := by
  rw [trim, ← trimStart_trimEnd, trimEnd_collapse]
  have hstart : trimStart ([' '].intercalate (words cs)) = [' '].intercalate (words cs) := by
    cases hwords : words cs with
    | nil => rfl
    | cons w rest =>
      have hw : w ∈ words cs := by simp [hwords]
      obtain ⟨c, w, rfl⟩ := List.exists_cons_of_ne_nil (ne_nil_of_mem_words hw)
      rw [List.intercalate_cons_cons_left]
      exact trimStart_cons_of_not_blank (isBlank_of_mem_words hw List.mem_cons_self)
  split
  · rw [trimStart_cons_of_blank (by decide), hstart]
  · exact hstart

/-- Cleaning up the blanks of a text keeps its words. -/
theorem words_trim_collapse (cs : List Char) : words (trim (collapse cs)) = words cs := by
  rw [trim_collapse]
  exact words_intercalate fun w hw => ⟨ne_nil_of_mem_words hw, fun c hc => isBlank_of_mem_words hw hc⟩

end ParamCheck.Text
