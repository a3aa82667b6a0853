import Mathlib.Tactic.Common
import ParamCheck.Merge
import ParamCheck.Proofs.Entries

/-!
# What a merge contributes to a directive

Each way of adding directives to those of a field is described by what is then found at one
directive. A directive that holds a single value (`Single`) keeps the one that it has and takes over
the contributed one otherwise (`lookup_merge`, `lookup_copyField`). A directive of any kind keeps
its value if nothing is contributed to it (`lookup_merge_of_absent`).
-/

namespace ParamCheck.Merge

variable {table : DirectiveTable}

/-- The directives of a declaration that may stand in it. -/
def accepted (table : DirectiveTable) (owner : Section) (spec : Directives) : Directives :=
  spec.filter fun e => eligible table owner e.1

/-- The table lets the directive hold no more than one value. -/
def Single (table : DirectiveTable) (k : Value) : Prop :=
  ∀ d, Entries.lookup table k = some d → d.multi = false

/-- Whether a merge takes over a directive: every one that is known, or if a field is copied, every
one that may stand in a mixin. -/
def carries (table : DirectiveTable) (copying : Bool) (k : Value) : Bool :=
  match Entries.lookup table k with
  | some d => !copying || d.mixin
  | none => false

/-- Where a directive may stand depends on its key alone. -/
theorem eligible_congr {k l : Value} (h : k.key? = l.key?) (owner : Section) :
    eligible table owner k = eligible table owner l := by
  unfold eligible
  rw [Entries.lookup_congr h]

/-- A copy takes over the directives that may stand in a mixin. -/
theorem carries_true (k : Value) : carries table true k = eligible table .mixin k := by
  unfold carries eligible
  cases Entries.lookup table k <;> rfl

/-- A directive that may stand somewhere is taken over from a mixin. -/
theorem carries_false_of_eligible {owner : Section} {k : Value}
    (h : eligible table owner k = true) : carries table false k = true := by
  unfold eligible at h
  unfold carries
  cases hd : Entries.lookup table k with
  | none =>
    rw [hd] at h
    cases h
  | some d => rfl

/-- Of a declaration the directives that may not stand in it are gone. -/
theorem lookup_accepted (owner : Section) (spec : Directives) (k : Value) :
    (accepted table owner spec).lookup k =
      if eligible table owner k then spec.lookup k else none :=
  Entries.lookup_filter (fun _ hl => eligible_congr hl owner) spec

/-- A contribution to one directive leaves the others. -/
theorem lookup_contribute_of_ne {key k : Value} (h : key.key? ≠ k.key?) (copying : Bool)
    (target : Directives) (v : Value) :
    (contribute table copying target key v).lookup k = target.lookup k := by
  have hinsert : ∀ w, (target.insert key w).lookup k = target.lookup k := by
    intro w
    rw [Entries.lookup_insert, if_neg h]
  unfold contribute
  split
  · rfl
  · split
    · rfl
    · split
      · exact hinsert v
      · split
        · exact hinsert _
        · rfl

/-- A single value is taken over if there is none yet. -/
theorem lookup_contribute {key k : Value} (hk : Single table k) (h : key.key? = k.key?)
    (copying : Bool) (target : Directives) (v : Value) :
    (contribute table copying target key v).lookup k =
      (target.lookup k).or (if carries table copying k then some v else none) := by
  unfold contribute carries
  rw [Entries.lookup_congr h table, Entries.lookup_congr h target]
  cases hd : Entries.lookup table k with
  | none =>
    dsimp only
    rw [if_neg (by decide), Option.or_none]
  | some d =>
    dsimp only
    -- The directive is known. It is passed over if it is copied and may not stand in a mixin.
    by_cases hskip : (copying && !d.mixin) = true
    · have hcarry : ¬(!copying || d.mixin) = true := by
        cases copying <;> cases hm : d.mixin <;> simp_all
      rw [if_pos hskip, if_neg hcarry, Option.or_none]
    · have hcarry : (!copying || d.mixin) = true := by
        cases copying <;> cases hm : d.mixin <;> simp_all
      rw [if_neg hskip, if_pos hcarry]
      -- A value that is there already stays, since a single one is not joined.
      cases ht : target.lookup k with
      | none =>
        dsimp only
        rw [Entries.lookup_insert, if_pos h, Option.none_or]
      | some w =>
        dsimp only
        rw [hk d hd, if_neg (by decide), ht, Option.some_or]

/-- A directive of which the source has nothing is left alone. -/
theorem lookup_merge_of_absent {k : Value} (copying : Bool) {source : Directives}
    (h : source.lookup k = none) :
    ∀ target, (merge table copying target source).lookup k = target.lookup k := by
  rw [Entries.lookup_eq_none_iff] at h
  unfold merge
  induction source with
  | nil =>
    intro target
    rfl
  | cons e rest ih =>
    intro target
    rw [List.foldl_cons, ih fun f hf => h f (List.mem_cons_of_mem _ hf)]
    exact lookup_contribute_of_ne (h e List.mem_cons_self) copying target e.2

/-- A single value is kept, and taken over from the source if there is none. -/
theorem lookup_merge {k : Value} (hk : Single table k) (copying : Bool) (source : Directives) :
    ∀ target, (merge table copying target source).lookup k =
      (target.lookup k).or (if carries table copying k then source.lookup k else none) := by
  unfold merge
  induction source with
  | nil =>
    intro target
    rw [List.foldl_nil, Entries.lookup_nil, ite_self, Option.or_none]
  | cons e rest ih =>
    intro target
    obtain ⟨key, v⟩ := e
    rw [List.foldl_cons, ih, Entries.lookup]
    by_cases h : key.key? = k.key?
    · rw [lookup_contribute hk h, if_pos h]
      cases target.lookup k <;> cases carries table copying k <;> simp
    · rw [lookup_contribute_of_ne h, if_neg h]

/-- A directive that is restored has its own value again, if it had one. -/
theorem lookup_restore (own : Directives) (key : String) (target : Directives) (k : Value) :
    (restore own key target).lookup k =
      if (Value.str key).key? = k.key? then (own.lookup k).or (target.lookup k)
      else target.lookup k := by
  unfold restore
  by_cases h : (Value.str key).key? = k.key?
  · rw [if_pos h, Entries.lookup_congr h own]
    cases own.lookup k with
    | none => rfl
    | some v =>
      dsimp only
      rw [Entries.lookup_insert, if_pos h, Option.some_or]
  · rw [if_neg h]
    split
    · rw [Entries.lookup_insert, if_neg h]
    · rfl

/-- A single value is kept, and copied from the other field if there is none and it may stand in a
mixin. The name and the label of the field itself make no difference to this. -/
theorem lookup_copyField {k : Value} (hk : Single table k) (target source : Directives) :
    (copyField table target source).lookup k =
      (target.lookup k).or ((accepted table .mixin source).lookup k) := by
  unfold copyField
  -- What is restored is what the field had before, and that comes first anyway.
  rw [lookup_restore, lookup_restore, lookup_merge hk, carries_true, lookup_accepted]
  cases target.lookup k <;> simp

/-- Bringing the filters together touches no other directive. -/
theorem lookup_joinFilters {k : Value} (h : (Value.str "filter").key? ≠ k.key?)
    (h' : (Value.str "filters").key? ≠ k.key?) (d : Directives) :
    (joinFilters d).lookup k = d.lookup k := by
  unfold joinFilters
  rw [Entries.lookup_insert, if_neg h', Entries.lookup_erase, if_neg h]

end ParamCheck.Merge
