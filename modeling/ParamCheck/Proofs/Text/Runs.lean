import ParamCheck.Proofs.Text.Blank

/-!
# Words as maximal runs

A maximal run of a text is a range of places whose characters are not blank, with a blank character or an end
of the text on either side. The words of a text are its maximal runs, in the order of their places
(`maximalRuns_iff`), and they are made of all its characters that are not blank (`flatten_words`).

A text grows at its front here: a blank character moves the runs behind it by one place
(`MaximalRuns.cons_of_blank`), and any other is a run by itself before a blank one or the end of the text
(`MaximalRuns.cons_of_stop`), and otherwise becomes the first character of the first run
(`MaximalRuns.cons_of_solid`).
-/

namespace ParamCheck.Text

variable {c d : Char} {cs w : List Char} {ws vs : List (List Char)} {i j l : Nat}
  {places : List (Nat × Nat)}

/-! ## Runs and their places -/

/-- The characters from place `i` up to place `j` are not blank, and no other such character is next to
them. -/
structure MaximalRun (cs : List Char) (i j : Nat) : Prop where
  nonempty : i < j
  within : j ≤ cs.length
  solid : ∀ k, i ≤ k → k < j → ∀ c ∈ cs[k]?, isBlank c = false
  start : ∀ k, k + 1 = i → ∀ c ∈ cs[k]?, isBlank c = true
  stop : ∀ c ∈ cs[j]?, isBlank c = true

/-- The texts are all maximal runs of a text, in the order of their places. -/
def MaximalRuns (cs : List Char) (ws : List (List Char)) : Prop :=
  ∃ places : List (Nat × Nat), places.Pairwise (·.1 < ·.1) ∧
    (∀ i j, (i, j) ∈ places ↔ MaximalRun cs i j) ∧ ws = places.map fun p => cs.extract p.1 p.2

/-- The places of a text determine its maximal runs. -/
theorem MaximalRuns.unique (h : MaximalRuns cs ws) (h' : MaximalRuns cs vs) : ws = vs := by
  obtain ⟨places, hsorted, hmem, rfl⟩ := h
  obtain ⟨places', hsorted', hmem', rfl⟩ := h'
  have hnodup {ps : List (Nat × Nat)} (h : ps.Pairwise (·.1 < ·.1)) : ps.Nodup := by
    refine h.imp ?_
    rintro p _ hlt rfl
    exact Nat.lt_irrefl p.1 hlt
  have hperm : places.Perm places' :=
    (List.perm_ext_iff_of_nodup (hnodup hsorted) (hnodup hsorted')).2 fun p =>
      (hmem p.1 p.2).trans (hmem' p.1 p.2).symm
  have heq : places = places' :=
    hperm.eq_of_pairwise (fun _ _ _ _ hlt hgt => absurd hlt (Nat.lt_asymm hgt)) hsorted hsorted'
  rw [heq]

theorem not_maximalRun_nil : ¬ MaximalRun [] i j := fun h =>
  absurd (Nat.lt_of_lt_of_le h.nonempty h.within) (Nat.not_lt_zero i)

/-- A text that begins with a run does not begin with a blank. -/
theorem MaximalRun.isBlank_head (h : MaximalRun (c :: cs) 0 j) : isBlank c = false :=
  h.solid 0 (Nat.le_refl 0) h.nonempty c rfl

/-- Two runs that begin at one place end at one place. -/
theorem MaximalRun.end_le (h : MaximalRun cs i j) (h' : MaximalRun cs i l) : j ≤ l := by
  by_contra hlt
  rw [Nat.not_le] at hlt
  have hl : l < cs.length := Nat.lt_of_lt_of_le hlt h.within
  have hblank := h'.stop cs[l] (List.getElem?_eq_getElem hl)
  have hsolid := h.solid l (Nat.le_of_lt h'.nonempty) hlt cs[l] (List.getElem?_eq_getElem hl)
  cases hblank.symm.trans hsolid

/-! ## Texts that grow at the front -/

/-- A run behind the first character is a run of the rest, unless it goes on from that character. -/
theorem maximalRun_cons_succ :
    MaximalRun (c :: cs) (i + 1) (j + 1) ↔ MaximalRun cs i j ∧ (i = 0 → isBlank c = true) := by
  constructor
  · intro h
    refine ⟨⟨Nat.lt_of_succ_lt_succ h.nonempty, Nat.le_of_succ_le_succ h.within, fun k hi hj => ?_,
      fun k hk => h.start (k + 1) (by rw [hk]), h.stop⟩, fun hi => h.start 0 (by rw [hi]) c rfl⟩
    exact h.solid (k + 1) (Nat.succ_le_succ hi) (Nat.succ_lt_succ hj)
  · rintro ⟨h, hfirst⟩
    refine ⟨Nat.succ_lt_succ h.nonempty, Nat.succ_le_succ h.within, fun k hi hj => ?_,
      fun k hk => ?_, h.stop⟩
    · obtain ⟨k, rfl⟩ := Nat.exists_eq_add_of_le' (Nat.one_le_of_lt hi)
      exact h.solid k (Nat.le_of_succ_le_succ hi) (Nat.lt_of_succ_lt_succ hj)
    · obtain rfl := Nat.succ.inj hk
      cases k with
      | zero =>
        rintro d hd
        obtain rfl := Option.some.inj hd
        exact hfirst rfl
      | succ k => exact h.start k rfl

theorem maximalRun_cons_succ_iff :
    MaximalRun (c :: cs) (i + 1) j ↔
      ∃ l, MaximalRun cs i l ∧ (i = 0 → isBlank c = true) ∧ j = l + 1 := by
  constructor
  · intro h
    obtain ⟨l, rfl⟩ := Nat.exists_eq_add_of_le' (Nat.one_le_of_lt h.nonempty)
    exact ⟨l, (maximalRun_cons_succ.1 h).1, (maximalRun_cons_succ.1 h).2, rfl⟩
  · rintro ⟨l, h, hfirst, rfl⟩
    exact maximalRun_cons_succ.2 ⟨h, hfirst⟩

/-- A run from the first character on is that character alone, or goes on with a run of the rest. -/
theorem maximalRun_cons_zero :
    MaximalRun (c :: cs) 0 (j + 1) ↔
      isBlank c = false ∧ ((j = 0 ∧ ∀ d ∈ cs.head?, isBlank d = true) ∨ MaximalRun cs 0 j) := by
  constructor
  · intro h
    refine ⟨h.isBlank_head, ?_⟩
    cases j with
    | zero => exact .inl ⟨rfl, List.head?_eq_getElem? ▸ h.stop⟩
    | succ j =>
      refine .inr ⟨Nat.succ_pos j, Nat.le_of_succ_le_succ h.within, fun k _ hj => ?_,
        fun k hk => ?_, h.stop⟩
      · exact h.solid (k + 1) (Nat.zero_le _) (Nat.succ_lt_succ hj)
      · cases hk
  · rintro ⟨hc, hrest⟩
    refine ⟨Nat.succ_pos j, ?_, fun k _ hj => ?_, fun k hk => ?_, ?_⟩
    · rcases hrest with ⟨rfl, -⟩ | h
      · exact Nat.succ_le_succ (Nat.zero_le _)
      · exact Nat.succ_le_succ h.within
    · cases k with
      | zero =>
        rintro d hd
        obtain rfl := Option.some.inj hd
        exact hc
      | succ k =>
        rcases hrest with ⟨rfl, -⟩ | h
        · exact absurd (Nat.lt_of_succ_lt_succ hj) (Nat.not_lt_zero k)
        · exact h.solid k (Nat.zero_le k) (Nat.lt_of_succ_lt_succ hj)
    · cases hk
    · rcases hrest with ⟨rfl, hstop⟩ | h
      · exact List.head?_eq_getElem? ▸ hstop
      · exact h.stop

/-- A run begins with the first character of a text if that is not blank. -/
theorem exists_maximalRun_zero (h : isBlank c = false) (cs : List Char) :
    ∃ j, MaximalRun (c :: cs) 0 (j + 1) := by
  induction cs generalizing c with
  | nil => exact ⟨0, maximalRun_cons_zero.2 ⟨h, .inl ⟨rfl, by simp⟩⟩⟩
  | cons d cs ih =>
    cases hd : isBlank d with
    | true => exact ⟨0, maximalRun_cons_zero.2 ⟨h, .inl ⟨rfl, by simpa using hd⟩⟩⟩
    | false =>
      obtain ⟨j, hj⟩ := ih hd
      exact ⟨j + 1, maximalRun_cons_zero.2 ⟨h, .inr hj⟩⟩

/-- The places that are one further on. -/
def shift (places : List (Nat × Nat)) : List (Nat × Nat) := places.map fun p => (p.1 + 1, p.2 + 1)

theorem zero_notMem_shift : (0, j) ∉ shift places := by simp [shift]

theorem succ_mem_shift : (i + 1, j) ∈ shift places ↔ ∃ l, (i, l) ∈ places ∧ j = l + 1 := by
  simp [shift, eq_comm]

theorem pairwise_shift (h : places.Pairwise (·.1 < ·.1)) : (shift places).Pairwise (·.1 < ·.1) :=
  List.pairwise_map.2 (h.imp Nat.succ_lt_succ)

theorem map_extract_shift (c : Char) (cs : List Char) (places : List (Nat × Nat)) :
    (shift places).map (fun p => (c :: cs).extract p.1 p.2) = places.map fun p => cs.extract p.1 p.2 := by
  simp [shift]

/-- A blank character in front of a text belongs to no run. -/
theorem MaximalRuns.cons_of_blank (hc : isBlank c = true) (h : MaximalRuns cs ws) :
    MaximalRuns (c :: cs) ws := by
  obtain ⟨places, hsorted, hmem, rfl⟩ := h
  refine ⟨shift places, pairwise_shift hsorted, fun i j => ?_, (map_extract_shift c cs places).symm⟩
  cases i with
  | zero =>
    refine iff_of_false zero_notMem_shift fun h => ?_
    cases hc.symm.trans h.isBlank_head
  | succ k =>
    rw [succ_mem_shift, maximalRun_cons_succ_iff]
    simp [hmem, hc]

/-- The runs of a text that begins with one are that one and the later runs of its rest. -/
theorem MaximalRuns.cons_of_run (hc : isBlank c = false) (hrun : MaximalRun (c :: cs) 0 (l + 1))
    (hsorted : places.Pairwise (·.1 < ·.1))
    (hmem : ∀ i j, (i, j) ∈ places ↔ MaximalRun cs i j ∧ i ≠ 0) :
    MaximalRuns (c :: cs) ((c :: cs.take l) :: places.map fun p => cs.extract p.1 p.2) := by
  refine ⟨(0, l + 1) :: shift places, List.pairwise_cons.2 ⟨?_, pairwise_shift hsorted⟩,
    fun i j => ?_, ?_⟩
  · rintro ⟨i, j⟩ h
    refine Nat.pos_of_ne_zero fun hi => ?_
    obtain rfl : i = 0 := hi
    exact zero_notMem_shift h
  · rw [List.mem_cons]
    cases i with
    | zero =>
      simp only [zero_notMem_shift, or_false, Prod.mk.injEq, true_and]
      constructor
      · rintro rfl
        exact hrun
      · exact fun h => Nat.le_antisymm (h.end_le hrun) (hrun.end_le h)
    | succ k =>
      rw [succ_mem_shift, maximalRun_cons_succ_iff]
      simp [hmem, hc, and_assoc]
  · rw [List.map_cons, map_extract_shift]
    rfl

/-- A character before a blank one, or at the end of the text, is a run by itself. -/
theorem MaximalRuns.cons_of_stop (hc : isBlank c = false) (hstop : ∀ d ∈ cs.head?, isBlank d = true)
    (h : MaximalRuns cs ws) : MaximalRuns (c :: cs) ([c] :: ws) := by
  obtain ⟨places, hsorted, hmem, rfl⟩ := h
  have hrun : MaximalRun (c :: cs) 0 1 := maximalRun_cons_zero.2 ⟨hc, .inl ⟨rfl, hstop⟩⟩
  refine MaximalRuns.cons_of_run hc hrun hsorted fun i j =>
    (hmem i j).trans (and_iff_left_of_imp ?_).symm
  rintro h rfl
  cases cs with
  | nil => exact not_maximalRun_nil h
  | cons d cs => cases (hstop d rfl).symm.trans h.isBlank_head

/-- A character before another that is not blank belongs to the run that begins there. -/
theorem MaximalRuns.cons_of_solid (hc : isBlank c = false) (hd : isBlank d = false)
    (h : MaximalRuns (d :: cs) (w :: ws)) : MaximalRuns (c :: d :: cs) ((c :: w) :: ws) := by
  obtain ⟨places, hsorted, hmem, hwords⟩ := h
  obtain ⟨l, hl⟩ := exists_maximalRun_zero hd cs
  rcases places with _ | ⟨⟨first, last⟩, places⟩
  · cases (hmem _ _).2 hl
  · rw [List.pairwise_cons] at hsorted
    have hzero : (0, l + 1) = (first, last) := by
      refine (List.mem_cons.1 ((hmem _ _).2 hl)).resolve_right fun h => ?_
      exact absurd (hsorted.1 _ h) (Nat.not_lt_zero first)
    obtain ⟨rfl, rfl⟩ := Prod.mk.inj hzero
    obtain ⟨rfl, rfl⟩ := List.cons.inj hwords
    refine MaximalRuns.cons_of_run hc (maximalRun_cons_zero.2 ⟨hc, .inr hl⟩) hsorted.2 fun i j => ?_
    rw [← hmem, List.mem_cons]
    constructor
    · exact fun h => ⟨.inr h, Nat.ne_of_gt (hsorted.1 _ h)⟩
    · rintro ⟨h | h, hi⟩
      · exact absurd (Prod.mk.inj h).1 hi
      · exact h

/-! ## Words -/

theorem maximalRuns_words (cs : List Char) : MaximalRuns cs (words cs) := by
  induction cs with
  | nil => exact ⟨[], .nil, fun i j => by simp [not_maximalRun_nil], rfl⟩
  | cons c cs ih =>
    cases hc : isBlank c with
    | true =>
      rw [words_cons_of_blank hc]
      exact ih.cons_of_blank hc
    | false =>
      by_cases hstop : ∀ d ∈ cs.head?, isBlank d = true
      · rw [words_cons_of_stop hc hstop]
        exact ih.cons_of_stop hc hstop
      · obtain ⟨d, cs, rfl, hd⟩ : ∃ d rest, cs = d :: rest ∧ isBlank d = false := by
          cases cs with
          | nil => exact absurd (by simp) hstop
          | cons d cs => exact ⟨d, cs, rfl, by simpa using hstop⟩
        obtain ⟨w, ws, hwords⟩ := words_cons_of_not_blank hd cs
        rw [words_cons_cons_of_not_blank hc hd, hwords]
        exact MaximalRuns.cons_of_solid hc hd (hwords ▸ ih)

/-- The words of a text are its maximal runs of characters that are not blank. -/
theorem maximalRuns_iff : MaximalRuns cs ws ↔ words cs = ws :=
  ⟨fun h => (maximalRuns_words cs).unique h, fun h => h ▸ maximalRuns_words cs⟩

theorem flatten_splitBlank (cs : List Char) : (splitBlank cs).flatten = cs.filter (!isBlank ·) := by
  induction cs with
  | nil => rfl
  | cons c cs ih =>
    cases hc : isBlank c with
    | true => simp [splitBlank_cons_of_blank hc, ih, hc]
    | false =>
      obtain ⟨w, ws, hsplit⟩ := List.exists_cons_of_ne_nil (splitBlank_ne_nil cs)
      rw [hsplit] at ih
      rw [splitBlank_cons_of_not_blank hc, hsplit, List.filter_cons_of_pos (by simp [hc]), ← ih]
      rfl

/-- The words of a text are made of all its characters that are not blank. -/
theorem flatten_words (cs : List Char) : (words cs).flatten = cs.filter (!isBlank ·) := by
  rw [words, List.flatten_filter_ne_nil, flatten_splitBlank]

end ParamCheck.Text
