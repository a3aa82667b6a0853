/-!
# Sets of code points given by ranges

A set of characters that a standard lists is kept as an increasing list of closed ranges of code
points. `Ranges.contains_iff` says what membership means for such a list.
-/

namespace ParamCheck.Text

/-- An increasing list of closed ranges of code points. -/
abbrev Ranges := List (Nat × Nat)

namespace Ranges

/-- Whether a code point lies in one of the ranges; the search ends at the first range above it. -/
def contains : Ranges → Nat → Bool
  | [], _ => false
  | (first, last) :: rest, n =>
    if n < first then false else if n ≤ last then true else contains rest n

/-- The ranges are disjoint and increasing. -/
def Sorted : Ranges → Prop
  | [] => True
  | (first, last) :: rest => first ≤ last ∧ (∀ r ∈ rest, last < r.1) ∧ Sorted rest

instance decidableSorted : (rs : Ranges) → Decidable (Sorted rs)
  | [] => isTrue trivial
  | (first, last) :: rest =>
    have := decidableSorted rest
    inferInstanceAs (Decidable (first ≤ last ∧ (∀ r ∈ rest, last < r.1) ∧ Sorted rest))

/-- In a sorted list the early end of the search loses nothing. -/
theorem contains_iff {rs : Ranges} (h : rs.Sorted) {n : Nat} :
    rs.contains n = true ↔ ∃ r ∈ rs, r.1 ≤ n ∧ n ≤ r.2 := by
  induction rs with
  | nil => simp [contains]
  | cons r rest ih =>
    obtain ⟨first, last⟩ := r
    obtain ⟨hle, hlt, hrest⟩ := h
    unfold contains
    by_cases h1 : n < first
    · simp only [h1, if_true, Bool.false_eq_true, List.mem_cons, false_iff]
      rintro ⟨r, rfl | hr, hn⟩
      · exact absurd hn.1 (by simpa using h1)
      · have := hlt r hr
        omega
    · by_cases h2 : n ≤ last
      · simp only [h1, h2, if_false, if_true, true_iff]
        exact ⟨(first, last), by simp, by simp; omega⟩
      · simp only [h1, h2, if_false, ih hrest, List.mem_cons]
        constructor
        · rintro ⟨r, hr, hn⟩
          exact ⟨r, Or.inr hr, hn⟩
        · rintro ⟨r, rfl | hr, hn⟩
          · exact absurd hn.2 h2
          · exact ⟨r, hr, hn⟩

end Ranges

end ParamCheck.Text
