import ParamCheck.Filter
import ParamCheck.Proofs.Text.Blank
import ParamCheck.Proofs.Text.Case

/-!
# Filters that are run twice

A built-in filter that is run on what it has made changes nothing more (`onValue_twice_iff`), with one
exception: a title is put into lower case before its words are raised, so that a small letter whose capital
form has several letters, such as `ß`, comes out of the second run with one capital and small letters behind
it (`not_idempotent`). Every other letter comes back as the capital that it was.
-/

namespace ParamCheck

open Text

namespace BuiltinFilter

variable {c d : Char} {cs w : List Char} {ws : List (List Char)}

/-! ## The first character -/

theorem raiseFirst_eq_self (h : ∀ c ∈ cs.head?, upperChar c = [c]) : raiseFirst cs = cs := by
  cases cs with
  | nil => rfl
  | cons c cs =>
    rw [raiseFirst, h c rfl]
    rfl

/-- What begins a raised text is in upper case. -/
theorem upperChar_of_head_raiseFirst (h : c ∈ (raiseFirst cs).head?) : upperChar c = [c] := by
  cases cs with
  | nil => cases h
  | cons d cs =>
    obtain ⟨u, us, hupper⟩ := List.exists_cons_of_ne_nil (upperChar_ne_nil d)
    rw [raiseFirst, hupper, List.cons_append, List.head?_cons, Option.mem_some] at h
    subst h
    have hu : u ∈ upperChar d := by simp [hupper]
    exact upperChar_of_mem_upperChar hu

/-! ## Sentences -/

/-- The letter after a full stop is raised if it is a small one that stands behind blanks. -/
theorem nextSentence?_eq (cs : List Char) :
    nextSentence? cs = (cs.dropWhile isBlank).head?.bind fun c =>
      if (cs.takeWhile isBlank).length ≠ 0 && 'a' ≤ c && c ≤ 'z' then
        some ((cs.takeWhile isBlank).length, c)
      else none := by
  have hdrop : cs.drop (cs.takeWhile isBlank).length = cs.dropWhile isBlank :=
    calc cs.drop (cs.takeWhile isBlank).length
        = (cs.takeWhile isBlank ++ cs.dropWhile isBlank).drop (cs.takeWhile isBlank).length := by
          rw [List.takeWhile_append_dropWhile]
      _ = cs.dropWhile isBlank := List.drop_left
  unfold nextSentence?
  dsimp only
  rw [hdrop]
  cases cs.dropWhile isBlank with
  | nil => rfl
  | cons c rest => rfl

theorem raiseSentences_cons_of_ne (h : c ≠ '.') (cs : List Char) :
    raiseSentences 0 (c :: cs) = c :: raiseSentences 0 cs := by
  rw [raiseSentences, if_neg h]

/-- The first character of a text stays as it is. -/
theorem head?_raiseSentences (cs : List Char) : (raiseSentences 0 cs).head? = cs.head? := by
  cases cs with
  | nil => rfl
  | cons c cs =>
    rw [raiseSentences]
    split
    · next hc =>
      split <;> simp [hc]
    · rfl

/-- Raising the first letters of sentences changes neither the blanks at the start of a text nor what
stands behind them. -/
theorem raiseSentences_start (cs : List Char) :
    (raiseSentences 0 cs).takeWhile isBlank = cs.takeWhile isBlank ∧
      ((raiseSentences 0 cs).dropWhile isBlank).head? = (cs.dropWhile isBlank).head? := by
  induction cs with
  | nil => exact ⟨rfl, rfl⟩
  | cons c cs ih =>
    cases hc : isBlank c with
    | true =>
      have hstop : c ≠ '.' := by
        rintro rfl
        exact absurd hc (by decide)
      rw [raiseSentences_cons_of_ne hstop]
      simpa [hc] using ih
    | false =>
      have hhead : (raiseSentences 0 (c :: cs)).head? = some c := head?_raiseSentences (c :: cs)
      obtain ⟨rest, hrest⟩ : ∃ rest, raiseSentences 0 (c :: cs) = c :: rest := by
        simpa using List.head?_eq_some_iff.1 hhead
      rw [hrest]
      simp [hc]

theorem nextSentence?_raiseSentences (cs : List Char) :
    nextSentence? (raiseSentences 0 cs) = nextSentence? cs := by
  obtain ⟨hblanks, hnext⟩ := raiseSentences_start cs
  rw [nextSentence?_eq, nextSentence?_eq, hblanks, hnext]

/-- The capital of a small letter is no full stop and no blank, and not a small letter. -/
theorem toUpper_spec (hlow : 'a' ≤ c) (hhigh : c ≤ 'z') :
    c.toUpper ≠ '.' ∧ isBlank c.toUpper = false ∧ ¬ 'a' ≤ c.toUpper := by
  have hall : ∀ n ∈ List.range' 97 26, (Char.ofNat n).toUpper ≠ '.' ∧
      isBlank (Char.ofNat n).toUpper = false ∧ ¬ 'a' ≤ (Char.ofNat n).toUpper := by
    decide +kernel
  have hcode := hall c.toNat (List.mem_range'_1.2 ⟨hlow, Nat.lt_succ_of_le hhigh⟩)
  rwa [Char.ofNat_toNat] at hcode

theorem isSmall_of_nextSentence? {n : Nat} (h : nextSentence? cs = some (n, c)) :
    'a' ≤ c ∧ c ≤ 'z' := by
  rw [nextSentence?_eq, Option.bind_eq_some_iff] at h
  obtain ⟨d, -, hd⟩ := h
  split at hd
  · next hsmall =>
    obtain ⟨-, rfl⟩ := Prod.mk.inj (Option.some.inj hd)
    simp only [Bool.and_eq_true, decide_eq_true_eq] at hsmall
    exact ⟨hsmall.1.2, hsmall.2⟩
  · cases hd

/-- A second run finds no more letters to raise. -/
theorem raiseSentences_raiseSentences (skip : Nat) (cs : List Char) :
    raiseSentences 0 (raiseSentences skip cs) = raiseSentences skip cs := by
  induction cs generalizing skip with
  | nil => cases skip <;> rfl
  | cons c cs ih =>
    cases skip with
    | succ skip => exact ih skip
    | zero =>
      by_cases hc : c = '.'
      · subst hc
        rw [raiseSentences, if_pos rfl]
        cases hnext : nextSentence? cs with
        | none =>
          dsimp only
          rw [raiseSentences, if_pos rfl, nextSentence?_raiseSentences, hnext]
          dsimp only
          rw [ih]
        | some sentence =>
          obtain ⟨blanks, d⟩ := sentence
          -- The capital stands behind one space, and no sentence begins there any more.
          obtain ⟨hlow, hhigh⟩ := isSmall_of_nextSentence? hnext
          obtain ⟨hstop, hblank, hsmall⟩ := toUpper_spec hlow hhigh
          have hdone : ∀ rest, nextSentence? (' ' :: d.toUpper :: rest) = none := fun rest => by
            have hspace : isBlank ' ' = true := by decide
            simp [nextSentence?_eq, hspace, hblank, hsmall]
          dsimp only
          rw [raiseSentences, if_pos rfl, hdone]
          dsimp only
          rw [raiseSentences_cons_of_ne (by decide), raiseSentences_cons_of_ne hstop, ih]
      · rw [raiseSentences_cons_of_ne hc, raiseSentences_cons_of_ne hc, ih]

/-! ## Titles -/

/-- What is left of a list without the empty texts at its end are its other texts. -/
theorem mem_dropEmptyEnd (hw : w ≠ []) : w ∈ dropEmptyEnd ws ↔ w ∈ ws := by
  have hend : ∀ vs : List (List Char), w ∈ vs.dropWhile (·.isEmpty) ↔ w ∈ vs := fun vs => by
    refine ⟨fun h => (List.dropWhile_suffix _).mem h, fun h => ?_⟩
    rw [← List.takeWhile_append_dropWhile (p := (·.isEmpty)) (l := vs), List.mem_append] at h
    refine h.resolve_left fun hdropped => hw ?_
    exact List.isEmpty_iff.1 (List.mem_takeWhile_imp hdropped)
  rw [dropEmptyEnd, List.mem_reverse, hend, List.mem_reverse]

theorem dropEmptyEnd_dropEmptyEnd (ws : List (List Char)) :
    dropEmptyEnd (dropEmptyEnd ws) = dropEmptyEnd ws :=
  List.rdropWhile_idempotent _ ws

/-- A map that keeps texts empty or not does not change which texts are dropped. -/
theorem dropEmptyEnd_map {g : List Char → List Char} (h : ∀ w ∈ ws, g w = [] ↔ w = []) :
    dropEmptyEnd (ws.map g) = (dropEmptyEnd ws).map g := by
  have hempty : ∀ vs : List (List Char), (∀ w ∈ vs, w ∈ ws) →
      (vs.map g).dropWhile (·.isEmpty) = (vs.dropWhile (·.isEmpty)).map g := fun vs hvs => by
    induction vs with
    | nil => rfl
    | cons v vs ih =>
      rw [List.forall_mem_cons] at hvs
      have hv : (g v).isEmpty = v.isEmpty := by
        rw [Bool.eq_iff_iff, List.isEmpty_iff, List.isEmpty_iff]
        exact h v hvs.1
      rw [List.map_cons, List.dropWhile_cons, List.dropWhile_cons, hv, ih hvs.2]
      split
      · rfl
      · rw [List.map_cons]
  unfold dropEmptyEnd
  rw [← List.map_reverse, hempty _ fun w hw => List.mem_reverse.1 hw, List.map_reverse]

/-- A word in lower case that is raised and put into lower case again begins with a letter that has the
same first capital. -/
theorem exists_lower_raiseFirst (h : lowerChar c = [c]) (cs : List Char) :
    ∃ u us l b, upperChar c = u :: us ∧ upperChar l = [u] ∧
      lower (raiseFirst (c :: cs)) = l :: lowerAfter b (us ++ cs) := by
  obtain ⟨u, us, l, hupper, hlower, hback⟩ := exists_capital h
  obtain ⟨b, hb⟩ := exists_lower_cons u (us ++ cs)
  refine ⟨u, us, l, b, hupper, hback, ?_⟩
  rw [raiseFirst, hupper, List.cons_append, hb, hlower]
  rfl

/-- A word is raised to the same again if lower case keeps what is behind its capital. -/
theorem raiseFirst_lower_raiseFirst_iff (h : ∀ c ∈ w, lowerChar c = [c]) :
    raiseFirst (lower (raiseFirst w)) = raiseFirst w ↔
      ∀ c ∈ w.head?, ∀ d ∈ (upperChar c).tail, lowerChar d = [d] := by
  cases w with
  | nil => simp [raiseFirst, lower, lowerAfter]
  | cons c cs =>
    rw [List.forall_mem_cons] at h
    obtain ⟨u, us, l, b, hupper, hback, hlower⟩ := exists_lower_raiseFirst h.1 cs
    have htail : lowerAfter b (us ++ cs) = us ++ cs ↔ ∀ d ∈ us, lowerChar d = [d] := by
      rw [lowerAfter_eq_self_iff, List.forall_mem_append]
      exact and_iff_left h.2
    rw [hlower, raiseFirst, raiseFirst, hback, hupper]
    simp [htail, hupper]

theorem lower_raiseFirst_eq_nil_iff (h : ∀ c ∈ w, lowerChar c = [c]) :
    lower (raiseFirst w) = [] ↔ w = [] := by
  cases w with
  | nil => simp [raiseFirst, lower, lowerAfter]
  | cons c cs =>
    obtain ⟨u, us, l, b, -, -, hlower⟩ := exists_lower_raiseFirst (h c List.mem_cons_self) cs
    simp [hlower]

theorem isBlank_of_mem_raiseFirst (h : ∀ c ∈ w, isBlank c = false) (hd : d ∈ raiseFirst w) :
    isBlank d = false := by
  cases w with
  | nil => cases hd
  | cons c cs =>
    rw [List.forall_mem_cons] at h
    rw [raiseFirst, List.mem_append] at hd
    rcases hd with hd | hd
    · exact (isBlank_of_mem_upperChar hd).trans h.1
    · exact h.2 d hd

/-- The pieces that are raised to make a title. -/
def pieces (cs : List Char) : List (List Char) := dropEmptyEnd (splitBlank (lower cs))

theorem titlecase_eq (cs : List Char) :
    titlecase.onText cs = [' '].intercalate ((pieces cs).map raiseFirst) := rfl

/-- The pieces hold no blanks and are in lower case. -/
theorem plain_of_mem_pieces (hw : w ∈ pieces cs) : ∀ c ∈ w, isBlank c = false ∧ lowerChar c = [c] := by
  intro c hc
  have hpiece : w ∈ splitBlank (lower cs) := (List.rdropWhile_prefix _ _).mem hw
  obtain ⟨hlower, hblank⟩ := mem_of_mem_splitBlank hpiece hc
  exact ⟨hblank, lowerChar_of_mem_lowerAfter hlower⟩

theorem isBlank_of_mem_raised (hw : w ∈ pieces cs) : ∀ c ∈ raiseFirst w, isBlank c = false := fun _ =>
  isBlank_of_mem_raiseFirst fun c hc => (plain_of_mem_pieces hw c hc).1

theorem isBlank_of_mem_lowered (hw : w ∈ pieces cs) : ∀ c ∈ lower (raiseFirst w), isBlank c = false :=
  fun _ => isBlank_of_mem_lowerAfter (isBlank_of_mem_raised hw)

/-- A title is made of the pieces of the text, raised and put into lower case again. -/
theorem pieces_titlecase (cs : List Char) :
    pieces (titlecase.onText cs) = (pieces cs).map (lower ∘ raiseFirst) := by
  by_cases hne : pieces cs = []
  · rw [titlecase_eq, hne]
    rfl
  · have hblank : ∀ w ∈ (pieces cs).map (lower ∘ raiseFirst), ∀ c ∈ w, isBlank c = false :=
      List.forall_mem_map.2 fun w hw => isBlank_of_mem_lowered hw
    have hnil : ∀ w ∈ pieces cs, (lower ∘ raiseFirst) w = [] ↔ w = [] := fun w hw =>
      lower_raiseFirst_eq_nil_iff fun c hc => (plain_of_mem_pieces hw c hc).2
    have hmap : (pieces cs).map (lower ∘ raiseFirst) ≠ [] := fun h => hne (List.map_eq_nil_iff.1 h)
    calc pieces (titlecase.onText cs)
        = dropEmptyEnd (splitBlank ([' '].intercalate ((pieces cs).map (lower ∘ raiseFirst)))) := by
          rw [pieces, titlecase_eq, lower_intercalate, List.map_map]
      _ = dropEmptyEnd ((pieces cs).map (lower ∘ raiseFirst)) := by
          rw [splitBlank_intercalate hmap hblank]
      _ = (pieces cs).map (lower ∘ raiseFirst) := by
          rw [dropEmptyEnd_map hnil, pieces, dropEmptyEnd_dropEmptyEnd]

/-- A second title is the first one if and only if each piece comes back. -/
theorem titlecase_titlecase_iff (cs : List Char) :
    titlecase.onText (titlecase.onText cs) = titlecase.onText cs ↔
      ∀ w ∈ pieces cs, raiseFirst (lower (raiseFirst w)) = raiseFirst w := by
  rw [titlecase_eq, pieces_titlecase, titlecase_eq, List.map_map, intercalate_inj]
  · exact List.map_inj_left
  · rw [List.map_eq_nil_iff, List.map_eq_nil_iff]
  · refine List.forall_mem_map.2 fun w hw c hc => ?_
    exact isBlank_of_mem_raiseFirst (isBlank_of_mem_lowered hw) hc
  · exact List.forall_mem_map.2 fun w hw => isBlank_of_mem_raised hw

/-- Every word of the lower-case form begins with a letter whose capital form has nothing behind its first
character that lower case would change. -/
def KeepsTitle (cs : List Char) : Prop :=
  ∀ w ∈ words (lower cs), ∀ c ∈ w.head?, ∀ d ∈ (upperChar c).tail, lowerChar d = [d]

theorem keepsTitle_iff (cs : List Char) :
    KeepsTitle cs ↔ ∀ w ∈ pieces cs, raiseFirst (lower (raiseFirst w)) = raiseFirst w := by
  have hpiece : ∀ w ∈ pieces cs, raiseFirst (lower (raiseFirst w)) = raiseFirst w ↔
      ∀ c ∈ w.head?, ∀ d ∈ (upperChar c).tail, lowerChar d = [d] := fun w hw =>
    raiseFirst_lower_raiseFirst_iff fun c hc => (plain_of_mem_pieces hw c hc).2
  constructor
  · intro h w hw
    rw [hpiece w hw]
    intro c hc
    have hne : w ≠ [] := by
      rintro rfl
      cases hc
    have hsplit : w ∈ splitBlank (lower cs) := (mem_dropEmptyEnd hne).1 hw
    exact h w (List.mem_filter.2 ⟨hsplit, decide_eq_true hne⟩) c hc
  · intro h w hw
    have hmem : w ∈ pieces cs :=
      (mem_dropEmptyEnd (ne_nil_of_mem_words hw)).2 (List.mem_of_mem_filter hw)
    exact (hpiece w hmem).1 (h w hmem)

/-! ## All filters -/

/-- The second run on the characters of a text. -/
theorem onText_onText_iff (f : BuiltinFilter) (cs : List Char) :
    f.onText (f.onText cs) = f.onText cs ↔ (f = titlecase → KeepsTitle cs) := by
  cases f with
  | alpha => simp [onText]
  | alphanumeric => simp [onText]
  | capitalize =>
    have hfirst : raiseFirst (raiseSentences 0 (raiseFirst cs)) = raiseSentences 0 (raiseFirst cs) :=
      raiseFirst_eq_self fun c hc => upperChar_of_head_raiseFirst (head?_raiseSentences _ ▸ hc)
    simp [onText, hfirst, raiseSentences_raiseSentences]
  | decimal => simp [onText]
  | lowercase =>
    have hlower : lower (lower cs) = lower cs :=
      lowerAfter_eq_self_iff.2 fun c hc => lowerChar_of_mem_lowerAfter hc
    simp [onText, hlower]
  | numeric => simp [onText]
  | strip =>
    have hstrip : Text.trim (collapse (Text.trim (collapse cs))) = Text.trim (collapse cs) := by
      rw [trim_collapse (Text.trim (collapse cs)), words_trim_collapse, trim_collapse]
    simp [onText, hstrip]
  | titlecase => simp [titlecase_titlecase_iff, keepsTitle_iff]
  | trim => simp [onText, trim_trim]
  | uppercase => simp [onText, upper_upper]

/-- A built-in filter leaves what it has made as it is, except that a title is kept only if no word begins
with a small letter whose capital form has a further capital. -/
theorem onValue_twice_iff (f : BuiltinFilter) (s : String) :
    (f.onValue (.str s) >>= f.onValue) = f.onValue (.str s) ↔
      (f = titlecase → KeepsTitle s.toList) := by
  have honce : f.onValue (.str s) = .ok (.str (String.ofList (f.onText s.toList))) := rfl
  have htwice : (f.onValue (.str s) >>= f.onValue) =
      .ok (.str (String.ofList (f.onText (f.onText s.toList)))) := by
    rw [honce]
    show f.onValue (.str (String.ofList (f.onText s.toList))) = _
    rw [onValue, String.toList_ofList]
  rw [htwice, honce, ← onText_onText_iff]
  simp [String.ofList_inj]

/-- The sharp s is raised to two capitals, and only the first of them comes out of the second run. -/
theorem not_idempotent :
    ¬ ∀ (f : BuiltinFilter) (s : String),
      (f.onValue (.str s) >>= f.onValue) = f.onValue (.str s) := by
  intro h
  have honce : (titlecase.onValue (.str "ß")).toOption.map Value.text = some "SS" := by decide +kernel
  have htwice : (titlecase.onValue (.str "ß") >>= titlecase.onValue).toOption.map Value.text =
      some "Ss" := by decide +kernel
  rw [h titlecase "ß", honce] at htwice
  exact absurd htwice (by decide)

end BuiltinFilter
end ParamCheck
