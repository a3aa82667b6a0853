import ParamCheck.Filter
import ParamCheck.Proofs.Text.Runs

/-!
# Texts without superfluous blanks

The `strip` filter turns every run of blank characters into one space and drops those at the ends. What it
leaves of a text are its maximal runs of other characters, in order, with one space between two of them
(`BuiltinFilter.onValue_strip`). A blank character of such a text divides its words into those before and
those behind it (`intercalate_eq_append_cons`), from which it follows that there is none at either end and
that no two are next to each other.
-/

namespace ParamCheck

namespace Text

variable {c : Char} {before after : List Char} {ws : List (List Char)}

/-! ## Words with spaces between them -/

theorem intercalate_ne_nil (hne : ws ≠ []) (h : ∀ w ∈ ws, w ≠ [] ∧ ∀ c ∈ w, isBlank c = false) :
    [' '].intercalate ws ≠ [] := by
  intro hnil
  have hwords := words_intercalate h
  rw [hnil, words_nil] at hwords
  exact hne hwords.symm

/-- A blank character in a text of words is a space between two of them. -/
theorem intercalate_eq_append_cons (h : ∀ w ∈ ws, w ≠ [] ∧ ∀ c ∈ w, isBlank c = false)
    (hsplit : [' '].intercalate ws = before ++ c :: after) (hc : isBlank c = true) :
    c = ' ' ∧ ∃ us vs, ws = us ++ vs ∧ us ≠ [] ∧ vs ≠ [] ∧
      before = [' '].intercalate us ∧ after = [' '].intercalate vs := by
  induction ws generalizing before with
  | nil => simp at hsplit
  | cons w ws ih =>
    rw [List.forall_mem_cons] at h
    have hword : c ∉ w := fun hmem => by cases hc.symm.trans (h.1.2 c hmem)
    cases ws with
    | nil =>
      rw [List.intercalate_singleton] at hsplit
      simp [hsplit] at hword
    | cons v ws =>
      rw [List.intercalate_cons_cons, List.append_assoc, List.append_eq_append_iff] at hsplit
      -- The first word ends before the blank character.
      obtain ⟨rest, rfl, hrest⟩ : ∃ rest, before = w ++ rest ∧
          ' ' :: [' '].intercalate (v :: ws) = rest ++ c :: after := by
        rcases hsplit with h | ⟨rest, rfl, hrest⟩
        · exact h
        · cases rest with
          | nil => exact ⟨[], by simp, hrest.symm⟩
          | cons a rest =>
            obtain ⟨rfl, -⟩ := List.cons.inj hrest
            simp at hword
      cases rest with
      | nil =>
        obtain ⟨rfl, rfl⟩ := List.cons.inj hrest
        exact ⟨rfl, [w], v :: ws, rfl, by simp, by simp, by simp, rfl⟩
      | cons a rest =>
        rw [List.cons_append, List.cons.injEq] at hrest
        obtain ⟨hspace, us, vs, hws, hus, hvs, hbefore, hafter⟩ := ih h.2 hrest.2
        refine ⟨hspace, w :: us, vs, by rw [hws, List.cons_append], by simp, hvs, ?_, hafter⟩
        rw [List.intercalate_cons_of_ne_nil hus, hbefore, ← hrest.1, List.append_assoc,
          List.singleton_append]

theorem isBlank_of_head?_intercalate (h : ∀ w ∈ ws, w ≠ [] ∧ ∀ c ∈ w, isBlank c = false)
    (hc : c ∈ ([' '].intercalate ws).head?) : isBlank c = false := by
  by_contra hblank
  rw [Bool.not_eq_false] at hblank
  obtain ⟨after, hsplit⟩ := List.head?_eq_some_iff.1 hc
  obtain ⟨-, us, vs, rfl, hus, -, hbefore, -⟩ :=
    intercalate_eq_append_cons h (hsplit.trans (List.nil_append _).symm) hblank
  exact intercalate_ne_nil hus (fun w hw => h w (List.mem_append_left vs hw)) hbefore.symm

theorem isBlank_of_getLast?_intercalate (h : ∀ w ∈ ws, w ≠ [] ∧ ∀ c ∈ w, isBlank c = false)
    (hc : c ∈ ([' '].intercalate ws).getLast?) : isBlank c = false := by
  by_contra hblank
  rw [Bool.not_eq_false] at hblank
  obtain ⟨before, hsplit⟩ := List.getLast?_eq_some_iff.1 hc
  obtain ⟨-, us, vs, rfl, -, hvs, -, hafter⟩ := intercalate_eq_append_cons h hsplit hblank
  exact intercalate_ne_nil hvs (fun w hw => h w (List.mem_append_right us hw)) hafter.symm

/-! ## What is left of a text -/

/-- The text `ts` is the text `cs` without superfluous blanks. -/
structure Stripped (cs ts : List Char) : Prop where
  /-- It is made of the maximal runs of characters that are not blank, in order, with single spaces between
  them. -/
  joined : ∃ ws, MaximalRuns cs ws ∧ ts = [' '].intercalate ws
  /-- Its own maximal runs are the same: no word is divided, and no two become one. -/
  runs : ∀ ws, MaximalRuns ts ws ↔ MaximalRuns cs ws
  /-- The characters that are not blank are all kept, in order. -/
  kept : ts.filter (!isBlank ·) = cs.filter (!isBlank ·)
  /-- It does not begin with a blank character. -/
  first : ∀ c ∈ ts.head?, isBlank c = false
  /-- It does not end with a blank character. -/
  last : ∀ c ∈ ts.getLast?, isBlank c = false
  /-- A blank character is a space between two characters that are not blank. -/
  between : ∀ before c after, ts = before ++ c :: after → isBlank c = true →
    c = ' ' ∧ (∃ d ∈ before.getLast?, isBlank d = false) ∧ ∃ d ∈ after.head?, isBlank d = false

theorem stripped_trim_collapse (cs : List Char) : Stripped cs (trim (collapse cs)) := by
  have hwords : ∀ w ∈ words cs, w ≠ [] ∧ ∀ c ∈ w, isBlank c = false := fun w hw =>
    ⟨ne_nil_of_mem_words hw, fun c hc => isBlank_of_mem_words hw hc⟩
  have htext := trim_collapse cs
  refine
    { joined := ⟨words cs, maximalRuns_words cs, htext⟩
      runs := fun ws => ?_
      kept := ?_
      first := fun c hc => isBlank_of_head?_intercalate hwords (htext ▸ hc)
      last := fun c hc => isBlank_of_getLast?_intercalate hwords (htext ▸ hc)
      between := fun before c after hsplit hc => ?_ }
  · rw [maximalRuns_iff, maximalRuns_iff, words_trim_collapse]
  · rw [← flatten_words, words_trim_collapse, flatten_words]
  · obtain ⟨hspace, us, vs, hws, hus, hvs, rfl, rfl⟩ :=
      intercalate_eq_append_cons hwords (htext.symm.trans hsplit) hc
    rw [hws, List.forall_mem_append] at hwords
    obtain ⟨d, hd⟩ : ∃ d, d ∈ ([' '].intercalate us).getLast? :=
      Option.isSome_iff_exists.1 (by simpa using intercalate_ne_nil hus hwords.1)
    obtain ⟨e, he⟩ : ∃ e, e ∈ ([' '].intercalate vs).head? :=
      Option.isSome_iff_exists.1 (by simpa using intercalate_ne_nil hvs hwords.2)
    exact ⟨hspace, ⟨d, hd, isBlank_of_getLast?_intercalate hwords.1 hd⟩,
      ⟨e, he, isBlank_of_head?_intercalate hwords.2 he⟩⟩

end Text

namespace BuiltinFilter

/-- The filter that strips a text returns its words in order, with single spaces between them and no other
blank characters. -/
theorem onValue_strip (s : String) :
    ∃ t, strip.onValue (.str s) = .ok (.str t) ∧ Text.Stripped s.toList t.toList := by
  refine ⟨String.ofList (Text.trim (Text.collapse s.toList)), rfl, ?_⟩
  rw [String.toList_ofList]
  exact Text.stripped_trim_collapse s.toList

example : strip.onText " \x1Ca\u2003\tb c\x85 ".toList = "a b c".toList := by decide +kernel

end BuiltinFilter
end ParamCheck
