import Mathlib.Algebra.Group.Nat.Defs
import Mathlib.Data.List.Chain
import Mathlib.Tactic.Common
import ParamCheck.Text.Blank
import ParamCheck.Text.Case

/-!
# Laws of upper and lower case

What a case mapping makes of a text it leaves alone (`upper_upper`, `lowerAfter_eq_self_iff`), and no
mapping makes or touches a blank character (`isBlank_of_mem_upperChar`, `isBlank_of_mem_lowerAfter`), so
that a blank character parts the lower-case forms of what stands before and behind it
(`lowerAfter_blank`). A character in lower case has a capital that comes back when its own lower-case form
is put into upper case (`exists_capital`), though that form need not be the character.

These are facts about all characters, and so about the tables. A search through the runs for every
character of a table would take the kernel minutes. Instead a set of code points is kept as the bits of
one number, which for a run is one division and one shift (`CaseRun.codes`). Two sets are apart if their
numbers share no bit (`CaseTable.Check`), and a run of one table is compared as a whole with the run of the
other table that undoes it (`CaseTable.undoes`).
-/

namespace ParamCheck.Text

/-! ## Runs -/

namespace CaseRun

/-- A run maps one code point to another. -/
def Maps (r : CaseRun) (n m : Nat) : Prop :=
  r.first ≤ n ∧ n ≤ r.last ∧ (n - r.first) % r.step = 0 ∧ m = r.target + (n - r.first)

instance (r : CaseRun) (n m : Nat) : Decidable (r.Maps n m) :=
  inferInstanceAs (Decidable (_ ∧ _ ∧ _ ∧ _))

/-- The distances from the first code point of a run to those that it maps. -/
def offsets (r : CaseRun) : List Nat :=
  (List.range ((r.last - r.first) / r.step + 1)).map (r.step * ·)

/-- A run maps code points at its offsets. -/
theorem Maps.exists_offset {r : CaseRun} {n m : Nat} (h : r.Maps n m) :
    ∃ i ∈ r.offsets, n = r.first + i ∧ m = r.target + i := by
  obtain ⟨hfirst, hlast, hstep, rfl⟩ := h
  refine ⟨n - r.first, ?_, by omega, rfl⟩
  refine List.mem_map.2 ⟨(n - r.first) / r.step, ?_, ?_⟩
  · have hle : (n - r.first) / r.step ≤ (r.last - r.first) / r.step :=
      Nat.div_le_div_right (by omega)
    exact List.mem_range.2 (by omega)
  · exact Nat.mul_div_cancel' (Nat.dvd_of_mod_eq_zero hstep)

/-- A run maps what stands at one of its offsets. -/
theorem maps_of_mem_offsets {r : CaseRun} {i : Nat} (h : i ∈ r.offsets) (hne : r.first ≤ r.last) :
    r.Maps (r.first + i) (r.target + i) := by
  obtain ⟨k, hk, rfl⟩ := List.mem_map.1 h
  rw [List.mem_range] at hk
  have hle : r.step * k ≤ r.last - r.first :=
    (Nat.mul_le_mul_left r.step (by omega)).trans (Nat.mul_div_le _ _)
  refine ⟨by omega, by omega, ?_, by omega⟩
  rw [Nat.add_sub_cancel_left, Nat.mul_mod_right]

/-- What the search finds is mapped by a run. -/
theorem exists_maps_of_image? {runs : List CaseRun} {n m : Nat} (h : image? runs n = some m) :
    ∃ r ∈ runs, r.Maps n m := by
  induction runs with
  | nil => cases h
  | cons r rest ih =>
    unfold image? at h
    split at h
    · cases h
    · next hfirst =>
      split at h
      · next hlast =>
        split at h
        · next hstep =>
          obtain rfl := Option.some.inj h
          exact ⟨r, List.mem_cons_self, by omega, hlast, hstep, rfl⟩
        · cases h
      · obtain ⟨s, hs, hmaps⟩ := ih h
        exact ⟨s, List.mem_cons_of_mem r hs, hmaps⟩

/-- A run is not empty and ends before another one begins. -/
def Below (r s : CaseRun) : Prop := r.first ≤ r.last ∧ r.last < s.first

instance (r s : CaseRun) : Decidable (r.Below s) := inferInstanceAs (Decidable (_ ∧ _))

instance : Trans Below Below Below where
  trans h h' := ⟨h.1, by have := h.2; have := h'.1; have := h'.2; omega⟩

/-- In runs that are in order the early end of the search loses nothing. -/
theorem image?_of_maps {runs : List CaseRun} (h : runs.IsChain Below) {r : CaseRun} (hr : r ∈ runs)
    {n m : Nat} (hmaps : r.Maps n m) : image? runs n = some m := by
  obtain ⟨hfirst, hlast, hstep, rfl⟩ := hmaps
  rw [List.isChain_iff_pairwise] at h
  induction runs with
  | nil => cases hr
  | cons s rest ih =>
    obtain ⟨hbelow, hrest⟩ := List.pairwise_cons.1 h
    unfold image?
    rcases List.mem_cons.1 hr with rfl | hr
    · rw [if_neg (by omega), if_pos hlast, if_pos hstep]
    · -- The code point lies above all of the first run.
      obtain ⟨hs, habove⟩ := hbelow r hr
      rw [if_neg (by omega), if_neg (by omega)]
      exact ih hrest hr

end CaseRun

/-- The small sigmas are in lower case, and the capital one becomes one of them. -/
theorem lowerChar_sigma :
    lowerChar 'Σ' = ['σ'] ∧ lowerChar 'σ' = ['σ'] ∧ lowerChar 'ς' = ['ς'] := by
  decide +kernel

/-! ## Sets of code points -/

/-- A set of code points, as the bits of a number. -/
def codeSet (codes : List Nat) : Nat := codes.foldr (fun n s => 1 <<< n ||| s) 0

/-- The bits that are set are those of the code points. -/
theorem testBit_codeSet {codes : List Nat} {n : Nat} :
    (codeSet codes).testBit n = true ↔ n ∈ codes := by
  induction codes with
  | nil => simp [codeSet]
  | cons m rest ih =>
    show (1 <<< m ||| codeSet rest).testBit n = true ↔ _
    rw [Nat.testBit_or, Nat.one_shiftLeft, Nat.testBit_two_pow, Bool.or_eq_true, ih, List.mem_cons,
      decide_eq_true_eq, eq_comm]

/-- Sets that share no bit have no code point in common. -/
theorem testBit_of_and_eq_zero {s s' n : Nat} (h : s &&& s' = 0) (hn : s.testBit n = true) :
    s'.testBit n = false := by
  have hbit : (s &&& s').testBit n = false := by rw [h, Nat.zero_testBit]
  rwa [Nat.testBit_and, hn, Bool.true_and] at hbit

/-- The multiples of a step below a bound, as a set. -/
def comb (step count : Nat) : Nat := (2 ^ (step * count) - 1) / (2 ^ step - 1)

theorem comb_succ {step : Nat} (h : 0 < step) (count : Nat) :
    comb step (count + 1) = 2 ^ (step * count) ||| comb step count := by
  have hstep : 0 < 2 ^ step - 1 := Nat.sub_pos_of_lt (Nat.one_lt_two_pow h.ne')
  have hsplit : 2 ^ (step * (count + 1)) - 1 =
      (2 ^ (step * count) - 1) + (2 ^ step - 1) * 2 ^ (step * count) := by
    have hle : 2 ^ (step * count) ≤ 2 ^ step * 2 ^ (step * count) :=
      Nat.le_mul_of_pos_left _ (Nat.two_pow_pos _)
    have hpos : 0 < 2 ^ (step * count) := Nat.two_pow_pos _
    rw [Nat.mul_succ, Nat.pow_add, Nat.mul_comm, Nat.sub_one_mul]
    omega
  have hlt : comb step count < 2 ^ (step * count) :=
    (Nat.div_le_self _ _).trans_lt (Nat.sub_one_lt (Nat.two_pow_pos _).ne')
  calc comb step (count + 1)
      = comb step count + 2 ^ (step * count) := by
        rw [comb, hsplit, Nat.add_mul_div_left _ _ hstep, comb]
    _ = 2 ^ (step * count) ||| comb step count := by
        rw [Nat.add_comm]
        simpa using Nat.two_pow_add_eq_or_of_lt hlt 1

/-- The bits that are set are those of the multiples. -/
theorem testBit_comb {step : Nat} (h : 0 < step) {count n : Nat} :
    (comb step count).testBit n = true ↔ ∃ k < count, step * k = n := by
  induction count with
  | zero => simp [comb]
  | succ count ih =>
    rw [comb_succ h, Nat.testBit_or, Nat.testBit_two_pow, Bool.or_eq_true, ih, decide_eq_true_eq]
    constructor
    · rintro (rfl | ⟨k, hk, rfl⟩)
      · exact ⟨count, Nat.lt_succ_self _, rfl⟩
      · exact ⟨k, by omega, rfl⟩
    · rintro ⟨k, hk, rfl⟩
      rcases Nat.lt_succ_iff_lt_or_eq.1 hk with hk | rfl
      · exact .inr ⟨k, hk, rfl⟩
      · exact .inl rfl

/-- The code points at the offsets of a run from a start, as a set. -/
def CaseRun.codes (r : CaseRun) (start : Nat) : Nat :=
  comb r.step ((r.last - r.first) / r.step + 1) <<< start

theorem CaseRun.testBit_codes {r : CaseRun} (h : 0 < r.step) {start n : Nat} :
    (r.codes start).testBit n = true ↔ ∃ i ∈ r.offsets, start + i = n := by
  rw [codes, Nat.testBit_shiftLeft, Bool.and_eq_true, testBit_comb h, decide_eq_true_eq]
  simp only [offsets, List.mem_map, List.mem_range]
  constructor
  · rintro ⟨hle, k, hk, hn⟩
    exact ⟨r.step * k, ⟨k, hk, rfl⟩, by omega⟩
  · rintro ⟨i, ⟨k, hk, rfl⟩, rfl⟩
    exact ⟨Nat.le_add_right _ _, k, hk, by omega⟩

/-- The code points of ranges, as a set. -/
def rangeSet (rs : Ranges) : Nat := rs.foldr (fun r s => comb 1 (r.2 + 1 - r.1) <<< r.1 ||| s) 0

/-- What is not in the set lies in none of the ranges. -/
theorem contains_eq_false {rs : Ranges} {n : Nat} (h : (rangeSet rs).testBit n = false) :
    rs.contains n = false := by
  induction rs with
  | nil => rfl
  | cons r rest ih =>
    obtain ⟨first, last⟩ := r
    change (comb 1 (last + 1 - first) <<< first ||| rangeSet rest).testBit n = false at h
    rw [Nat.testBit_or, Bool.or_eq_false_iff] at h
    have hout : ¬(first ≤ n ∧ n ≤ last) := by
      rintro ⟨hfirst, hlast⟩
      have hbit : (comb 1 (last + 1 - first) <<< first).testBit n = true := by
        rw [Nat.testBit_shiftLeft, decide_eq_true hfirst, Bool.true_and]
        exact (testBit_comb Nat.one_pos).2 ⟨n - first, by omega, by omega⟩
      cases hbit.symm.trans h.1
    rw [Ranges.contains]
    split
    · rfl
    · rw [if_neg (by omega)]
      exact ih h.2

/-- The code points of the blank characters. -/
def blankCodes : List Nat := blankRanges.flatMap fun r => List.range' r.1 (r.2 + 1 - r.1)

theorem isBlank_iff_mem_blankCodes {c : Char} : isBlank c = true ↔ c.toNat ∈ blankCodes := by
  have hsorted : blankRanges.Sorted := by decide
  rw [isBlank, Ranges.contains_iff hsorted, blankCodes, List.mem_flatMap]
  refine exists_congr fun r => and_congr_right fun _ => ?_
  rw [List.mem_range'_1]
  omega

/-! ## Tables -/

/-- The table of a case mapping: the characters that become several, and runs of those that become
one. -/
structure CaseTable where
  expansions : List (Nat × List Nat)
  runs : List CaseRun

namespace CaseTable

/-- The table of upper case. -/
def upper : CaseTable := ⟨upperExpansions, upperRuns⟩

/-- The table of lower case. -/
def lower : CaseTable := ⟨lowerExpansions, lowerRuns⟩

variable (t : CaseTable)

/-- What a table makes of a character. -/
def map (c : Char) : List Char :=
  match t.expansions.lookup c.toNat with
  | some image => image.map Char.ofNat
  | none =>
    match CaseRun.image? t.runs c.toNat with
    | some n => [Char.ofNat n]
    | none => [c]

/-- The code points that become several. -/
def expanded : List Nat := t.expansions.map (·.1)

/-- The code points that the runs map. -/
def moved : List Nat := t.runs.flatMap fun r => r.offsets.map (r.first + ·)

/-- The code points in which others end up. -/
def images : List Nat :=
  t.expansions.flatMap (·.2) ++ t.runs.flatMap fun r => r.offsets.map (r.target + ·)

/-- A table has its runs in order, maps nothing to what it maps in turn, and has nothing to do with blank
characters. -/
structure Tidy : Prop where
  runs : ∀ r ∈ t.runs, 0 < r.step ∧ r.first ≤ r.last
  ordered : t.runs.IsChain CaseRun.Below
  expansions : ∀ e ∈ t.expansions, e.2 ≠ []
  apart : ∀ n ∈ t.moved, n ∉ t.expanded
  closed : ∀ n ∈ t.images, n ∉ t.expanded ++ t.moved
  blank : ∀ n ∈ blankCodes, n ∉ t.expanded ++ t.moved ++ t.images
  valid : ∀ n ∈ t.moved ++ t.images, n.isValidChar

variable {t}

/-- A code point that a run maps is among those that runs map. -/
theorem mem_moved {r : CaseRun} (hr : r ∈ t.runs) {n m : Nat} (h : r.Maps n m) : n ∈ t.moved := by
  obtain ⟨i, hi, rfl, -⟩ := h.exists_offset
  exact List.mem_flatMap.2 ⟨r, hr, List.mem_map_of_mem hi⟩

/-- A character that is not in the table stays as it is. -/
theorem map_eq_self {c : Char} (h : c.toNat ∉ t.expanded ++ t.moved) : t.map c = [c] := by
  rw [List.mem_append, not_or] at h
  have hexpansion : t.expansions.lookup c.toNat = none := by
    refine List.lookup_eq_none_iff.2 fun e he => bne_iff_ne.2 fun heq => h.1 ?_
    exact heq ▸ List.mem_map_of_mem he
  have hrun : CaseRun.image? t.runs c.toNat = none := by
    refine Option.eq_none_iff_forall_ne_some.2 fun m hm => h.2 ?_
    obtain ⟨r, hr, hmaps⟩ := CaseRun.exists_maps_of_image? hm
    exact mem_moved hr hmaps
  unfold map
  rw [hexpansion, hrun]

/-- A valid code point is that of its character. -/
theorem toNat_ofNat {n : Nat} (h : n.isValidChar) : (Char.ofNat n).toNat = n := by
  rw [Char.ofNat, dif_pos h]
  rfl

/-- A character that does not stay as it is stands in the table, and it becomes images of the table. -/
theorem map_cases (ht : t.Tidy) (c : Char) :
    t.map c = [c] ∨ c.toNat ∈ t.expanded ++ t.moved ∧ ∀ d ∈ t.map c, d.toNat ∈ t.images := by
  have himage : ∀ n ∈ t.images, (Char.ofNat n).toNat ∈ t.images := fun n hn =>
    (toNat_ofNat (ht.valid n (List.mem_append_right _ hn))).symm ▸ hn
  unfold map
  cases hexpansion : t.expansions.lookup c.toNat with
  | some image =>
    obtain ⟨before, after, hsplit, -⟩ := List.lookup_eq_some_iff.1 hexpansion
    have hmem : (c.toNat, image) ∈ t.expansions := by simp [hsplit]
    refine .inr ⟨List.mem_append_left _ (List.mem_map_of_mem hmem), fun d hd => ?_⟩
    obtain ⟨n, hn, rfl⟩ := List.mem_map.1 hd
    exact himage n (List.mem_append_left _ (List.mem_flatMap.2 ⟨_, hmem, hn⟩))
  | none =>
    dsimp only
    cases hrun : CaseRun.image? t.runs c.toNat with
    | none => exact .inl rfl
    | some m =>
      obtain ⟨r, hr, hmaps⟩ := CaseRun.exists_maps_of_image? hrun
      refine .inr ⟨List.mem_append_right _ (mem_moved hr hmaps), fun d hd => ?_⟩
      obtain rfl := List.mem_singleton.1 hd
      obtain ⟨i, hi, -, rfl⟩ := hmaps.exists_offset
      refine himage _ (List.mem_append_right _ ?_)
      exact List.mem_flatMap.2 ⟨r, hr, List.mem_map_of_mem hi⟩

/-- What a table makes of a character stays as it is. -/
theorem map_of_mem_map (ht : t.Tidy) {c d : Char} (hd : d ∈ t.map c) : t.map d = [d] := by
  rcases map_cases ht c with hself | ⟨-, himages⟩
  · rw [hself, List.mem_singleton] at hd
    exact hd ▸ hself
  · exact map_eq_self (ht.closed _ (himages d hd))

/-- A table neither makes nor removes blank characters. -/
theorem isBlank_of_mem_map (ht : t.Tidy) {c d : Char} (hd : d ∈ t.map c) : isBlank d = isBlank c := by
  have hapart : ∀ e : Char, e.toNat ∈ t.expanded ++ t.moved ++ t.images → isBlank e = false :=
    fun e he => by
      by_contra hblank
      rw [Bool.not_eq_false, isBlank_iff_mem_blankCodes] at hblank
      exact ht.blank _ hblank he
  rcases map_cases ht c with hself | ⟨hc, himages⟩
  · rw [hself, List.mem_singleton] at hd
    rw [hd]
  · rw [hapart d (List.mem_append_right _ (himages d hd)), hapart c (List.mem_append_left _ hc)]

/-- What a table makes of a character that a run of it maps. -/
theorem map_of_maps (ht : t.Tidy) {c : Char} {r : CaseRun} (hr : r ∈ t.runs) {n : Nat}
    (h : r.Maps c.toNat n) : t.map c = [Char.ofNat n] := by
  have hexpansion : t.expansions.lookup c.toNat = none :=
    List.lookup_eq_none_iff.2 fun e he => bne_iff_ne.2 fun heq =>
      ht.apart _ (mem_moved hr h) (heq ▸ List.mem_map_of_mem he)
  unfold map
  rw [hexpansion, CaseRun.image?_of_maps ht.ordered hr h]

/-- No character vanishes. -/
theorem map_ne_nil (ht : t.Tidy) (c : Char) : t.map c ≠ [] := by
  unfold map
  cases hexpansion : t.expansions.lookup c.toNat with
  | some image =>
    obtain ⟨before, after, hsplit, -⟩ := List.lookup_eq_some_iff.1 hexpansion
    have hmem : (c.toNat, image) ∈ t.expansions := by simp [hsplit]
    exact fun h => ht.expansions _ hmem (List.map_eq_nil_iff.1 h)
  | none =>
    dsimp only
    cases CaseRun.image? t.runs c.toNat with
    | none => exact List.cons_ne_nil _ _
    | some m => exact List.cons_ne_nil _ _

/-! ### Tests -/

variable (t)

/-- The code points that the runs map, as a set. -/
def movedSet : Nat := t.runs.foldr (fun r s => r.codes r.first ||| s) 0

/-- The code points in which others end up, as a set. -/
def imageSet : Nat :=
  t.runs.foldr (fun r s => r.codes r.target ||| s) (codeSet (t.expansions.flatMap (·.2)))

/-- The test of a table. No code point of it lies among the surrogates or above the last character. -/
def Check : Prop :=
  (∀ r ∈ t.runs, 0 < r.step ∧ r.first ≤ r.last) ∧ t.runs.IsChain CaseRun.Below ∧
  (∀ e ∈ t.expansions, e.2 ≠ []) ∧ t.movedSet &&& codeSet t.expanded = 0 ∧
  t.imageSet &&& (codeSet t.expanded ||| t.movedSet) = 0 ∧
  codeSet blankCodes &&& (codeSet t.expanded ||| t.movedSet ||| t.imageSet) = 0 ∧
  (t.movedSet ||| t.imageSet) &&& comb 1 0x800 <<< 0xD800 = 0 ∧
  (t.movedSet ||| t.imageSet) >>> 0x110000 = 0

instance : Decidable t.Check := inferInstanceAs (Decidable (_ ∧ _ ∧ _ ∧ _ ∧ _ ∧ _ ∧ _ ∧ _))

/-- Whether a table undoes a run: one run of it maps everything back that is among its own images. -/
def undoes (r : CaseRun) : Bool :=
  (t.imageSet &&& r.codes r.first).beq 0 || t.runs.any fun s =>
    (s.target + r.target).beq (r.first + s.first) &&
      (t.imageSet &&& r.codes r.first ||| s.codes s.target).beq (s.codes s.target)

variable {t}

theorem testBit_movedSet (h : ∀ r ∈ t.runs, 0 < r.step) {n : Nat} :
    t.movedSet.testBit n = true ↔ n ∈ t.moved := by
  obtain ⟨expansions, runs⟩ := t
  induction runs with
  | nil => simp [movedSet, moved]
  | cons r rest ih =>
    obtain ⟨hr, hrest⟩ := List.forall_mem_cons.1 h
    show (r.codes r.first ||| movedSet ⟨expansions, rest⟩).testBit n = true ↔ _
    rw [Nat.testBit_or, Bool.or_eq_true, ih hrest, CaseRun.testBit_codes hr]
    simp [moved]

theorem testBit_imageSet (h : ∀ r ∈ t.runs, 0 < r.step) {n : Nat} :
    t.imageSet.testBit n = true ↔ n ∈ t.images := by
  obtain ⟨expansions, runs⟩ := t
  induction runs with
  | nil => simp [imageSet, images, testBit_codeSet]
  | cons r rest ih =>
    obtain ⟨hr, hrest⟩ := List.forall_mem_cons.1 h
    show (r.codes r.target ||| imageSet ⟨expansions, rest⟩).testBit n = true ↔ _
    rw [Nat.testBit_or, Bool.or_eq_true, ih hrest, CaseRun.testBit_codes hr]
    simp [images, or_left_comm]

/-- A table that passes the test is tidy. -/
theorem Check.tidy (h : t.Check) : t.Tidy := by
  obtain ⟨hruns, hordered, hexpansions, hapart, hclosed, hblank, hsurrogates, hlast⟩ := h
  have hmoved : ∀ {n}, t.movedSet.testBit n = true ↔ n ∈ t.moved :=
    testBit_movedSet fun r hr => (hruns r hr).1
  have himages : ∀ {n}, t.imageSet.testBit n = true ↔ n ∈ t.images :=
    testBit_imageSet fun r hr => (hruns r hr).1
  have hsources : ∀ {n}, (codeSet t.expanded ||| t.movedSet).testBit n = true ↔
      n ∈ t.expanded ++ t.moved := by
    simp [Nat.testBit_or, testBit_codeSet, hmoved]
  refine ⟨hruns, hordered, hexpansions, fun n hn hn' => ?_, fun n hn hn' => ?_, fun n hn hn' => ?_,
    fun n hn => ?_⟩
  · have hfree := testBit_of_and_eq_zero hapart (hmoved.2 hn)
    rw [testBit_codeSet.2 hn'] at hfree
    cases hfree
  · have hfree := testBit_of_and_eq_zero hclosed (himages.2 hn)
    rw [hsources.2 hn'] at hfree
    cases hfree
  · have hfree := testBit_of_and_eq_zero hblank (testBit_codeSet.2 hn)
    rw [Nat.testBit_or, Bool.or_eq_false_iff] at hfree
    rcases List.mem_append.1 hn' with hn' | hn'
    · cases (hsources.2 hn').symm.trans hfree.1
    · cases (himages.2 hn').symm.trans hfree.2
  · have hset : (t.movedSet ||| t.imageSet).testBit n = true := by
      rw [Nat.testBit_or, Bool.or_eq_true, hmoved, himages]
      exact List.mem_append.1 hn
    have hbelow : n < 0x110000 := by
      by_contra habove
      have hbit : ((t.movedSet ||| t.imageSet) >>> 0x110000).testBit (n - 0x110000) = true := by
        rw [Nat.testBit_shiftRight, Nat.add_sub_cancel' (by omega)]
        exact hset
      rw [hlast, Nat.zero_testBit] at hbit
      cases hbit
    have hfree := testBit_of_and_eq_zero hsurrogates hset
    have hgap : ¬(0xD800 ≤ n ∧ n < 0xE000) := by
      rintro ⟨hlow, hhigh⟩
      rw [Nat.testBit_shiftLeft, Bool.and_eq_false_iff, decide_eq_false_iff_not] at hfree
      refine hfree.elim (fun h => h hlow) fun h => ?_
      rw [(testBit_comb Nat.one_pos).2 ⟨n - 0xD800, by omega, by omega⟩] at h
      cases h
    show n < 0xD800 ∨ 0xDFFF < n ∧ n < 0x110000
    omega

/-- What a run maps is mapped back by a table that undoes the run if it is an image of the table. -/
theorem maps_of_undoes (ht : t.Tidy) {r : CaseRun} (hr : 0 < r.step) (h : t.undoes r = true) {n m : Nat}
    (hn : n ∈ t.images) (hmaps : r.Maps n m) : ∃ s ∈ t.runs, s.Maps m n := by
  obtain ⟨i, hi, rfl, rfl⟩ := hmaps.exists_offset
  have hset : (t.imageSet &&& r.codes r.first).testBit (r.first + i) = true := by
    rw [Nat.testBit_and, (testBit_imageSet fun r hr => (ht.runs r hr).1).2 hn,
      (CaseRun.testBit_codes hr).2 ⟨i, hi, rfl⟩]
    rfl
  rw [undoes, Bool.or_eq_true, Nat.beq_eq, List.any_eq_true] at h
  obtain hnone | ⟨s, hs, hback⟩ := h
  · rw [hnone, Nat.zero_testBit] at hset
    cases hset
  · rw [Bool.and_eq_true, Nat.beq_eq, Nat.beq_eq] at hback
    obtain ⟨hshift, hsubset⟩ := hback
    -- The code point is in the larger set, so that it is at an offset of the other run.
    have hsource : (s.codes s.target).testBit (r.first + i) = true := by
      rw [← hsubset, Nat.testBit_or, hset, Bool.true_or]
    obtain ⟨hstep, hle⟩ := ht.runs s hs
    obtain ⟨j, hj, hij⟩ := (CaseRun.testBit_codes hstep).1 hsource
    have hsame : r.target + i = s.first + j := by omega
    exact ⟨s, hs, hsame ▸ hij ▸ CaseRun.maps_of_mem_offsets hj hle⟩

/-- The tables pass their tests, upper case undoes what lower case makes of its images, none of which becomes
several characters, and no blank character is a cased one or one that case mapping ignores. -/
theorem tables_check :
    upper.Check ∧ lower.Check ∧ lower.runs.all upper.undoes = true ∧
      upper.imageSet &&& codeSet lower.expanded = 0 ∧
      codeSet blankCodes &&& (rangeSet caseIgnorableRanges ||| rangeSet casedRanges) = 0 := by
  decide +kernel

theorem tidy_upper : upper.Tidy := tables_check.1.tidy

theorem tidy_lower : lower.Tidy := tables_check.2.1.tidy

/-- An image of upper case comes back from lower case. -/
theorem lower_upper {u : Char} (hu : u.toNat ∈ upper.images) :
    ∃ l, lower.map u = [l] ∧ upper.map l = [u] := by
  obtain ⟨-, -, hundone, hapart, -⟩ := tables_check
  have hself : upper.map u = [u] := map_eq_self (tidy_upper.closed _ hu)
  have hexpanded : u.toNat ∉ lower.expanded := by
    have himage := (testBit_imageSet fun r hr => (tidy_upper.runs r hr).1).2 hu
    rw [← testBit_codeSet, testBit_of_and_eq_zero hapart himage]
    exact Bool.false_ne_true
  by_cases hmoved : u.toNat ∈ lower.moved
  · obtain ⟨r, hr, hn⟩ := List.mem_flatMap.1 hmoved
    obtain ⟨i, hi, hui⟩ := List.mem_map.1 hn
    obtain ⟨hstep, hle⟩ := tidy_lower.runs r hr
    have hmaps : r.Maps u.toNat (r.target + i) := hui ▸ CaseRun.maps_of_mem_offsets hi hle
    obtain ⟨s, hs, hback⟩ :=
      maps_of_undoes tidy_upper hstep (List.all_eq_true.1 hundone r hr) hu hmaps
    refine ⟨Char.ofNat (r.target + i), map_of_maps tidy_lower hr hmaps, ?_⟩
    have hcode : (Char.ofNat (r.target + i)).toNat = r.target + i :=
      toNat_ofNat (tidy_upper.valid _ (List.mem_append_left _ (mem_moved hs hback)))
    rw [map_of_maps tidy_upper hs (hcode.symm ▸ hback), Char.ofNat_toNat]
  · exact ⟨u, map_eq_self (by simp [hexpanded, hmoved]), hself⟩

end CaseTable

/-! ## Characters -/

theorem upperChar_eq (c : Char) : upperChar c = CaseTable.upper.map c := rfl

variable {c d : Char} {cs : List Char}

/-- What upper case makes of a character is in upper case. -/
theorem upperChar_of_mem_upperChar (h : d ∈ upperChar c) : upperChar d = [d] :=
  CaseTable.map_of_mem_map CaseTable.tidy_upper h

/-- What lower case makes of a character is in lower case. -/
theorem lowerChar_of_mem_lowerChar (h : d ∈ lowerChar c) : lowerChar d = [d] :=
  CaseTable.map_of_mem_map CaseTable.tidy_lower h

theorem isBlank_of_mem_upperChar (h : d ∈ upperChar c) : isBlank d = isBlank c :=
  CaseTable.isBlank_of_mem_map CaseTable.tidy_upper h

theorem isBlank_of_mem_lowerChar (h : d ∈ lowerChar c) : isBlank d = isBlank c :=
  CaseTable.isBlank_of_mem_map CaseTable.tidy_lower h

theorem upperChar_ne_nil (c : Char) : upperChar c ≠ [] := CaseTable.map_ne_nil CaseTable.tidy_upper c

/-- A character in lower case has a first capital, which comes back when it is put into lower case and
into upper case again. -/
theorem exists_capital (h : lowerChar c = [c]) :
    ∃ u us l, upperChar c = u :: us ∧ lowerChar u = [l] ∧ upperChar l = [u] := by
  obtain ⟨u, us, hupper⟩ := List.exists_cons_of_ne_nil (upperChar_ne_nil c)
  rcases CaseTable.map_cases CaseTable.tidy_upper c with hself | ⟨-, himages⟩
  · rw [← upperChar_eq] at hself
    exact ⟨c, [], c, hself, h, hself⟩
  · have hu : u ∈ upperChar c := by simp [hupper]
    obtain ⟨l, hlower, hback⟩ := CaseTable.lower_upper (himages u hu)
    exact ⟨u, us, l, hupper, hlower, hback⟩

/-! ## Texts -/

/-- Text in upper case stays as it is in upper case. -/
theorem upper_upper (cs : List Char) : upper (upper cs) = upper cs := by
  rw [upper, upper, List.flatMap_assoc]
  refine List.flatMap_congr fun c _ => ?_
  calc (upperChar c).flatMap upperChar
      = (upperChar c).flatMap fun d => [d] :=
        List.flatMap_congr fun d hd => upperChar_of_mem_upperChar hd
    _ = upperChar c := List.flatMap_singleton' _

/-- What lower case makes of a text is in lower case. -/
theorem lowerChar_of_mem_lowerAfter {b : Bool} (h : d ∈ lowerAfter b cs) : lowerChar d = [d] := by
  induction cs generalizing b with
  | nil => cases h
  | cons c cs ih =>
    rw [lowerAfter, List.mem_append] at h
    rcases h with h | h
    · split at h
      · obtain rfl := List.mem_singleton.1 h
        split
        · exact lowerChar_sigma.2.2
        · exact lowerChar_sigma.2.1
      · exact lowerChar_of_mem_lowerChar h
    · exact ih h

/-- Lower case keeps exactly the texts whose characters are in lower case. -/
theorem lowerAfter_eq_self_iff {b : Bool} : lowerAfter b cs = cs ↔ ∀ c ∈ cs, lowerChar c = [c] := by
  refine ⟨fun h c hc => lowerChar_of_mem_lowerAfter (h.symm ▸ hc), fun h => ?_⟩
  induction cs generalizing b with
  | nil => rfl
  | cons c cs ih =>
    rw [List.forall_mem_cons] at h
    have hsigma : c ≠ 'Σ' := by
      rintro rfl
      exact absurd (lowerChar_sigma.1.symm.trans h.1) (by decide)
    rw [lowerAfter, if_neg hsigma, h.1, ih h.2]
    rfl

/-- At the start of a text the capital sigma is no exception. -/
theorem exists_lower_cons (c : Char) (cs : List Char) :
    ∃ b, lower (c :: cs) = lowerChar c ++ lowerAfter b cs := by
  by_cases hc : c = 'Σ'
  · refine ⟨true, ?_⟩
    subst hc
    rw [lowerChar_sigma.1]
    rfl
  · rw [lower, lowerAfter, if_neg hc]
    exact ⟨_, rfl⟩

/-- Lower case does nothing to blank characters. -/
theorem lowerChar_of_isBlank (h : isBlank c = true) : lowerChar c = [c] := by
  refine CaseTable.map_eq_self (t := .lower) fun hc => ?_
  exact CaseTable.tidy_lower.blank _ (isBlank_iff_mem_blankCodes.1 h) (List.mem_append_left _ hc)

theorem isBlank_of_mem_lowerAfter {b : Bool} (h : ∀ c ∈ cs, isBlank c = false)
    (hd : d ∈ lowerAfter b cs) : isBlank d = false := by
  induction cs generalizing b with
  | nil => cases hd
  | cons c cs ih =>
    rw [List.forall_mem_cons] at h
    rw [lowerAfter, List.mem_append] at hd
    rcases hd with hd | hd
    · split at hd
      · obtain rfl := List.mem_singleton.1 hd
        split <;> decide
      · exact (isBlank_of_mem_lowerChar hd).trans h.1
    · exact ih h.2 hd

/-- No blank character is a cased one or one that case mapping ignores. -/
theorem caseless_of_isBlank (h : isBlank c = true) :
    caseIgnorableRanges.contains c.toNat = false ∧ casedRanges.contains c.toNat = false := by
  obtain ⟨-, -, -, -, hapart⟩ := CaseTable.tables_check
  have hfree := testBit_of_and_eq_zero hapart (testBit_codeSet.2 (isBlank_iff_mem_blankCodes.1 h))
  rw [Nat.testBit_or, Bool.or_eq_false_iff] at hfree
  exact ⟨contains_eq_false hfree.1, contains_eq_false hfree.2⟩

theorem casedNext_cons (c : Char) (cs : List Char) :
    casedNext (c :: cs) =
      if caseIgnorableRanges.contains c.toNat then casedNext cs else casedRanges.contains c.toNat := by
  unfold casedNext
  by_cases h : caseIgnorableRanges.contains c.toNat = true
  · simp [h]
  · simp [h]

/-- A search for a cased character ends at a blank one. -/
theorem casedNext_blank (h : isBlank c = true) (w rest : List Char) :
    casedNext (w ++ c :: rest) = casedNext w := by
  obtain ⟨hignorable, hcased⟩ := caseless_of_isBlank h
  induction w with
  | nil => simp [casedNext, hignorable, hcased]
  | cons e w ih => rw [List.cons_append, casedNext_cons, casedNext_cons, ih]

/-- A blank character parts the lower-case forms of what stands before and behind it. -/
theorem lowerAfter_blank (h : isBlank c = true) (b : Bool) (w rest : List Char) :
    lowerAfter b (w ++ c :: rest) = lowerAfter b w ++ c :: lower rest := by
  obtain ⟨hignorable, hcased⟩ := caseless_of_isBlank h
  induction w generalizing b with
  | nil =>
    have hsigma : c ≠ 'Σ' := by
      rintro rfl
      exact absurd h (by decide)
    simp [lowerAfter, lower, hsigma, lowerChar_of_isBlank h, hignorable, hcased]
  | cons e w ih =>
    rw [List.cons_append, lowerAfter, lowerAfter, casedNext_blank h, ih, List.append_assoc]

/-- The lower-case form of texts with spaces between them. -/
theorem lower_intercalate (ws : List (List Char)) :
    lower ([' '].intercalate ws) = [' '].intercalate (ws.map lower) := by
  induction ws with
  | nil => rfl
  | cons w rest ih =>
    cases rest with
    | nil => simp
    | cons v rest =>
      rw [List.map_cons, List.map_cons, List.intercalate_cons_cons, List.intercalate_cons_cons,
        List.append_assoc, List.append_assoc, ← List.map_cons, ← ih]
      exact lowerAfter_blank (by decide) false w _

end ParamCheck.Text
