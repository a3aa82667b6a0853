import Mathlib.Algebra.Group.Nat.Defs
import ParamCheck.Value.Convert

/-!
# Values that can be written

A container can be written if all that it holds can, and what can be written is written. A small number
can (`Value.writable_of_lt`).
-/

namespace ParamCheck.Value

/-- The items of a sequence can be written if each can. -/
theorem writableItems_iff {items : List Value} :
    writable.writableItems items = true ↔ ∀ v ∈ items, v.writable = true := by
  induction items with
  | nil => simp [writable.writableItems]
  | cons v rest ih => rw [writable.writableItems, Bool.and_eq_true, ih, List.forall_mem_cons]

theorem writable_list_iff {items : List Value} :
    (list items).writable = true ↔ ∀ v ∈ items, v.writable = true := by
  rw [writable, writableItems_iff]

theorem writable_tuple_iff {items : List Value} :
    (tuple items).writable = true ↔ ∀ v ∈ items, v.writable = true := by
  rw [writable, writableItems_iff]

/-- The keys of a mapping that can be written can be written. -/
theorem writable_of_mem_keys {entries : Entries Value} (h : (dict entries).writable = true) :
    ∀ k ∈ entries.keys, k.writable = true := by
  change writable.writableEntries entries = true at h
  induction entries with
  | nil => exact List.forall_mem_nil _
  | cons e rest ih =>
    obtain ⟨k, v⟩ := e
    rw [writable.writableEntries, Bool.and_eq_true, Bool.and_eq_true] at h
    exact List.forall_mem_cons.2 ⟨h.1.1, ih h.2⟩

/-- An integer can be written if it is below the first one with too many digits. -/
theorem writable_of_lt {n : Int} (h : n.natAbs < 10 ^ Number.maxDigits) : (int n).writable = true :=
  decide_eq_true ((Nat.length_toDigits_le_iff (by decide) (by decide)).2 h)

/-- What a value that can be written is gone through by can be written. -/
theorem writable_of_items {v : Value} {vs : List Value} (h : v.writable = true) (hvs : v.items = .ok vs) :
    ∀ x ∈ vs, x.writable = true := by
  cases v with
  | str s =>
    obtain rfl := Except.ok.inj hvs
    intro x hx
    obtain ⟨c, -, rfl⟩ := List.mem_map.1 hx
    rfl
  | bytes bs =>
    obtain rfl := Except.ok.inj hvs
    intro x hx
    obtain ⟨b, -, rfl⟩ := List.mem_map.1 hx
    exact writable_of_lt (Nat.lt_of_lt_of_le b.toNat_lt (by decide +kernel))
  | list items =>
    obtain rfl := Except.ok.inj hvs
    exact writable_list_iff.1 h
  | tuple items =>
    obtain rfl := Except.ok.inj hvs
    exact writable_tuple_iff.1 h
  | set items =>
    obtain rfl := Except.ok.inj hvs
    exact writableItems_iff.1 h
  | dict entries =>
    obtain rfl := Except.ok.inj hvs
    exact writable_of_mem_keys h
  | _ => cases hvs

/-- Whatever is listed by a value that can be written can be written. -/
theorem writable_of_mem_toList {v x : Value} (h : v.writable = true) (hx : x ∈ v.toList) :
    x.writable = true := by
  cases v with
  | null => cases hx
  | list items => exact writable_list_iff.1 h x hx
  | tuple items => exact writable_tuple_iff.1 h x hx
  | _ =>
    obtain rfl := List.mem_singleton.1 hx
    exact h

/-- Values that can be written one by one can be written in a row. -/
theorem mapM_write {vs : List Value} (h : ∀ v ∈ vs, v.writable = true) :
    vs.mapM write = .ok (vs.map text) := by
  induction vs with
  | nil => rfl
  | cons v rest ih =>
    obtain ⟨hv, hrest⟩ := List.forall_mem_cons.1 h
    rw [List.mapM_cons, write_of_writable hv, ih hrest]
    rfl

/-- Values of which one cannot be written cannot be written in a row. -/
theorem mapM_write_of_not_writable {vs : List Value} (h : ∃ v ∈ vs, v.writable = false) :
    vs.mapM write = .error .badValue := by
  induction vs with
  | nil =>
    obtain ⟨v, hv, -⟩ := h
    cases hv
  | cons v rest ih =>
    rw [List.mapM_cons]
    cases hv : v.writable with
    | false =>
      rw [write_of_not_writable hv]
      rfl
    | true =>
      obtain ⟨w, hw, hbad⟩ := h
      rcases List.mem_cons.1 hw with rfl | hw
      · cases hv.symm.trans hbad
      · rw [write_of_writable hv, ih ⟨w, hw, hbad⟩]
        rfl

end ParamCheck.Value
