import Mathlib.Data.List.Induction
import ParamCheck.Proofs.Report
import ParamCheck.Value.Entries

/-!
# Sameness and keys

Values that can be found by a key are the same exactly when their keys are (`Value.key?_eq_of_same`,
`Value.same_of_key?`). So to leave out repetitions of such values is to keep the first of each key
(`Value.unique_eq_firsts`), and what can be found is there once (`Value.countP_unique`).
-/

namespace ParamCheck

namespace Value

/-! ## Sameness of keys -/

/-- A scalar is found by its own key. -/
theorem key?_of_scalarKey? {v : Value} {k : Key} (h : v.scalarKey? = some k) : v.key? = some k := by
  cases v with
  | tuple items => cases h
  | _ => exact h

mutual

/-- Values that are the same are found by the same key. -/
theorem key?_eq_of_same {v w : Value} (h : v.same w = true) : v.key? = w.key? := by
  unfold same at h
  split at h
  · rfl
  · exact chain?_eq_of_sameItems h
  · rfl
  · rfl
  · rfl
  · split at h
    · next hv hw =>
      rw [key?_of_scalarKey? hv, key?_of_scalarKey? hw, of_decide_eq_true h]
    · cases h

/-- Items that are the same item by item make up the same key. -/
theorem chain?_eq_of_sameItems {vs ws : List Value} (h : same.sameItems vs ws = true) :
    key?.chain? vs = key?.chain? ws := by
  match vs, ws with
  | [], [] => rfl
  | v :: vs, w :: ws =>
    obtain ⟨hfirst, hrest⟩ := Bool.and_eq_true_iff.1 h
    rw [key?.chain?, key?.chain?, key?_eq_of_same hfirst, chain?_eq_of_sameItems hrest]
  | [], _ :: _ => cases h
  | _ :: _, [] => cases h

end

/-- The key of a scalar is no chain. -/
theorem scalarKey?_ne_chain {v : Value} {k : Key} (h : v.scalarKey? = some k) :
    ∀ items, key?.chain? items ≠ some k := by
  intro items hchain
  have hlink : k = .unit ∨ ∃ a b, k = .pair a b := by
    cases items with
    | nil => exact .inl (Option.some.inj hchain).symm
    | cons v rest =>
      rw [key?.chain?] at hchain
      split at hchain
      · exact .inr ⟨_, _, (Option.some.inj hchain).symm⟩
      · cases hchain
  cases v with
  | float x =>
    rw [scalarKey?] at h
    split at h <;> rcases hlink with rfl | ⟨a, b, rfl⟩ <;> cases h
  | _ => rcases hlink with rfl | ⟨a, b, rfl⟩ <;> cases h

/-- A value that is no tuple has the key of a scalar, if any. -/
theorem key?_eq_scalarKey? {v : Value} (h : ∀ items, v ≠ .tuple items) : v.key? = v.scalarKey? := by
  cases v with
  | tuple items => exact absurd rfl (h items)
  | _ => rfl

mutual

/-- Values that are found by the same key are the same. -/
theorem same_of_key? {v w : Value} {k : Key} (hv : v.key? = some k) (hw : w.key? = some k) :
    v.same w = true := by
  unfold same
  split
  · cases hv
  · exact sameItems_of_chain? hv hw
  · cases hv
  · cases hv
  · cases hv
  · next htuples _ _ _ =>
    -- Only a tuple has the key of a tuple.
    by_cases hv' : ∀ items, v ≠ .tuple items
    · rw [key?_eq_scalarKey? hv'] at hv
      by_cases hw' : ∀ items, w ≠ .tuple items
      · rw [key?_eq_scalarKey? hw'] at hw
        rw [hv, hw]
        exact decide_eq_true rfl
      · obtain ⟨items, rfl⟩ : ∃ items, w = .tuple items := by simpa using hw'
        exact absurd hw (scalarKey?_ne_chain hv items)
    · obtain ⟨items, rfl⟩ : ∃ items, v = .tuple items := by simpa using hv'
      rw [key?_eq_scalarKey? fun items' heq => htuples items items' rfl heq] at hw
      exact absurd hv (scalarKey?_ne_chain hw items)

/-- Items that make up the same key are the same item by item. -/
theorem sameItems_of_chain? {vs ws : List Value} {k : Key} (hv : key?.chain? vs = some k)
    (hw : key?.chain? ws = some k) : same.sameItems vs ws = true := by
  match vs, ws with
  | [], [] => rfl
  | v :: vs, w :: ws =>
    rw [key?.chain?] at hv hw
    split at hv
    · next a as ha has =>
      split at hw
      · next b bs hb hbs =>
        obtain ⟨rfl, rfl⟩ := Key.pair.inj (Option.some.inj (hv.trans hw.symm))
        rw [same.sameItems, same_of_key? ha hb, sameItems_of_chain? has hbs]
        rfl
      · cases hw
    · cases hv
  | [], _ :: _ =>
    obtain rfl := Option.some.inj hv
    rw [key?.chain?] at hw
    split at hw <;> cases hw
  | _ :: _, [] =>
    obtain rfl := Option.some.inj hw
    rw [key?.chain?] at hv
    split at hv <;> cases hv

end

/-! ## Values without repetitions -/

/-- Repetitions can be left out at the start first. -/
theorem unique_unique_append (vs ws : List Value) : unique (unique vs ++ ws) = unique (vs ++ ws) := by
  have hagain : Report.addAll [] (unique vs) = [] ++ unique vs :=
    Report.addAll_of_unrepeated (pairwise_unique vs)
  rw [List.nil_append, Report.addAll_nil] at hagain
  rw [← Report.addAll_nil, Report.addAll_append, Report.addAll_nil, hagain, ← Report.addAll_nil,
    ← Report.addAll_append, Report.addAll_nil]

/-- What can be found by a key is there once after repetitions have been left out. -/
theorem countP_unique {vs : List Value} {v : Value} (hv : v ∈ vs) (hkey : v.isKey = true) :
    (unique vs).countP (fun w => w.key? = v.key?) = 1 := by
  obtain ⟨k, hk⟩ := Option.isSome_iff_exists.1 hkey
  have hany : (unique vs).any v.same = true := Report.any_addAll hv []
  obtain ⟨w, hw, hsame⟩ := List.any_eq_true.1 hany
  have hpos : 0 < (unique vs).countP fun w => w.key? = v.key? :=
    List.countP_pos_iff.2 ⟨w, hw, decide_eq_true (key?_eq_of_same hsame).symm⟩
  -- Two of them would be the same.
  have hsingle : ((unique vs).filter fun w => w.key? = v.key?).length ≤ 1 := by
    have hpairwise := (pairwise_unique vs).filter fun w => w.key? = v.key?
    rcases hfilter : (unique vs).filter fun w => w.key? = v.key? with _ | ⟨a, _ | ⟨b, rest⟩⟩
    · rw [hfilter]
      exact Nat.zero_le _
    · rw [hfilter]
      exact Nat.le_refl _
    · have hall : ∀ x ∈ (unique vs).filter fun w => w.key? = v.key?, x.key? = some k := by
        intro x hx
        rw [← hk]
        exact of_decide_eq_true (List.mem_filter.1 hx).2
      rw [hfilter] at hpairwise hall
      have ha := hall a List.mem_cons_self
      have hb := hall b (List.mem_cons_of_mem _ List.mem_cons_self)
      have hnot := (List.pairwise_cons.1 hpairwise).1 b List.mem_cons_self
      cases (same_of_key? hb ha).symm.trans hnot
  rw [List.countP_eq_length_filter] at hpos ⊢
  omega

/-! ## The first of each key -/

/-- The values whose key no value before them has. -/
def firsts (vs : List Value) : List Value :=
  (vs.zipIdx.filter fun e => (vs.take e.2).all fun w => w.key? ≠ e.1.key?).map (·.1)

/-- A value at the end is one of the first if its key is new. -/
theorem firsts_concat (vs : List Value) (v : Value) :
    firsts (vs ++ [v]) = firsts vs ++ if vs.all fun w => w.key? ≠ v.key? then [v] else [] := by
  unfold firsts
  rw [List.zipIdx_append, List.filter_append, List.map_append]
  refine congrArg₂ (· ++ ·) (congrArg (List.map _) (List.filter_congr fun e he => ?_)) ?_
  · have hbefore : e.2 ≤ vs.length := by
      have hlt := (List.mem_zipIdx he).2.1
      omega
    rw [List.take_append_of_le_length hbefore]
  · rw [List.zipIdx_singleton, List.filter_cons, Nat.zero_add,
      List.take_append_of_le_length (Nat.le_refl _), List.take_length]
    split <;> rfl

/-- What a value can be found by is there after repetitions have been left out, too. -/
theorem exists_mem_unique {vs : List Value} {v : Value} (h : v ∈ vs) :
    ∃ w ∈ unique vs, w.key? = v.key? := by
  have hany : (unique vs).any v.same = true := Report.any_addAll h []
  obtain ⟨w, hw, hsame⟩ := List.any_eq_true.1 hany
  exact ⟨w, hw, (key?_eq_of_same hsame).symm⟩

/-- Whether a value is a repetition depends on whether its key is there. -/
theorem any_same_unique (vs : List Value) {v : Value} (hv : v.isKey = true) :
    (unique vs).any v.same = !vs.all fun w => w.key? ≠ v.key? := by
  obtain ⟨k, hk⟩ := Option.isSome_iff_exists.1 hv
  rw [Bool.eq_iff_iff, Bool.not_eq_true', List.any_eq_true, List.all_eq_false]
  constructor
  · rintro ⟨w, hw, hsame⟩
    exact ⟨w, mem_of_mem_unique hw, by simp [key?_eq_of_same hsame]⟩
  · rintro ⟨w, hw, hkey⟩
    obtain ⟨u, hu, hukey⟩ := exists_mem_unique hw
    have hwkey : w.key? = v.key? := by simpa using hkey
    exact ⟨u, hu, same_of_key? hk (hukey.trans (hwkey.trans hk))⟩

/-- Of values that can be found, the first of each key is kept when repetitions are left out. -/
theorem unique_eq_firsts {vs : List Value} (h : ∀ v ∈ vs, v.isKey = true) : unique vs = firsts vs := by
  induction vs using List.reverseRecOn with
  | nil => rfl
  | append_singleton vs v ih =>
    obtain ⟨hvs, hv⟩ := List.forall_mem_append.1 h
    have hnew := any_same_unique vs (hv v List.mem_cons_self)
    rw [firsts_concat, ← ih hvs, ← Report.addAll_nil, Report.addAll_append, Report.addAll_nil]
    show Report.add (unique vs) v = _
    unfold Report.add
    rw [hnew]
    cases vs.all fun w => w.key? ≠ v.key? with
    | true => rfl
    | false => exact (List.append_nil _).symm

/-- Values that can be found have keys of their own once repetitions are left out. -/
theorem pairwise_key?_unique {vs : List Value} (h : ∀ v ∈ vs, v.isKey = true) :
    (unique vs).Pairwise fun v w => v.key? ≠ w.key? := by
  refine (pairwise_unique vs).imp_of_mem fun {v w} hv _ hsame hkey => ?_
  obtain ⟨k, hk⟩ := Option.isSome_iff_exists.1 (h v (mem_of_mem_unique hv))
  rw [same_of_key? (hkey.symm.trans hk) hk] at hsame
  cases hsame

end Value

end ParamCheck
