import ParamCheck.Nested.Build
import ParamCheck.Nested.Flatten
import ParamCheck.Proofs.Entries
import ParamCheck.Proofs.Nested.FlatKey

/-!
# Data that grow leaf by leaf

Building puts leaves into data one after the other, each at its path (`Value.Puts`,
`Value.Builds`). `Step.Slot` describes a new place of a container, and `Builds.child` says what
becomes of it: the leaves of a value, put in below the place, leave the value there. It is
enough that the leaves alone give the value back, starting from the empty container that their
paths ask for (`Value.Regrows`).
-/

namespace ParamCheck

/-- A step that is read back from the piece of a key that stands for it: an index must not have
more digits than a whole number may be written with. -/
def Step.Readable : Step → Prop
  | key _ => True
  | index n => n < 10 ^ Number.maxDigits

/-- A step is read from its piece by reading the digits of an index. -/
theorem Step.step_segment_index (n : Nat) (key : Value) :
    (Step.index n).segment.step key =
      match Number.readInt? (Number.natDigits n) with
      | some i => .ok (.index i.toNat)
      | none => .error .badValue := by
  -- The digits pass for an index, and there is one.
  have hdigits : (Number.natDigits n).all Text.isDigitLike = true := by
    rw [List.all_eq_true]
    intro c hc
    have hvalue := Number.digitValue?_of_isAsciiDigit (Number.isAsciiDigit_of_mem_natDigits hc)
    rw [Text.isDigitLike, Text.isDecimal, hvalue]
    rfl
  have hne : (Number.natDigits n).isEmpty = false :=
    List.isEmpty_eq_false_iff.2 Nat.toDigits_ne_nil
  rw [segment, Segment.step, hne, hdigits]
  rfl

/-- A readable step is read back. -/
theorem Step.step_segment {s : Step} (hs : s.Readable) (key : Value) :
    s.segment.step key = .ok s := by
  cases s with
  | key name => rw [segment, Segment.step, String.ofList_toList]
  | index n =>
    rw [step_segment_index, Number.readInt?_natDigits hs]
    rfl

/-- What is read from the piece of a step is that step. -/
theorem Step.eq_of_step_segment {s t : Step} {key : Value} (h : s.segment.step key = .ok t) : t = s := by
  cases s with
  | key name =>
    have hread : (Step.key name).Readable := trivial
    exact (Except.ok.inj ((step_segment hread key).symm.trans h)).symm
  | index n =>
    rw [step_segment_index, Number.readInt?_natDigits_eq] at h
    split at h
    · next i hi =>
      split at hi
      · cases hi
      · obtain rfl := Option.some.inj hi
        exact (Except.ok.inj h).symm
    · cases h

namespace Value

/-- The empty container that a step leads into. -/
def containerFor (s : Step) : Value := emptyFor s.segment

/-- A leaf can be put at a path in `node`, and the data are then `result`. -/
def Puts (path : Path) (leaf node result : Value) : Prop :=
  ∀ key, place key (path.map Step.segment) node leaf = (result, none)

/-- Leaves can be put in one after the other, and the data are then `result`. -/
def Builds : List (Path × Value) → Value → Value → Prop
  | [], node, result => node = result
  | (path, leaf) :: rest, node, result => ∃ next, Puts path leaf node next ∧ Builds rest next result

/-- Leaves are put in after others. -/
theorem Builds.append {xs ys : List (Path × Value)} {a b c : Value} (hx : Builds xs a b)
    (hy : Builds ys b c) : Builds (xs ++ ys) a c := by
  induction xs generalizing a with
  | nil =>
    obtain rfl := hx
    exact hy
  | cons x xs ih =>
    obtain ⟨next, hput, hrest⟩ := hx
    exact ⟨next, hput, ih hrest⟩

/-- Setting a step gives a container. -/
theorem isContainer_of_set {s : Step} {node v result : Value} (h : s.set node v = .ok result) :
    result.isContainer = true := by
  unfold Step.set at h
  split at h
  · cases h; rfl
  · cases h
  · next items n =>
    cases hcheck : Step.checkIndex items.length n with
    | ok u => rw [hcheck] at h; cases h; rfl
    | error e => rw [hcheck] at h; cases h
  · cases h
  · cases h

/-- Replacing what a step leads to keeps containers. -/
theorem isContainer_replace {s : Step} {node v : Value} (h : node.isContainer = true) :
    (s.replace node v).isContainer = true := by
  unfold Step.replace
  split <;> first | rfl | exact h

/-- What a path leads into is a container. -/
theorem isContainer_of_into {s : Step} {node child : Value} (h : s.into? node = some child) :
    node.isContainer = true := by
  unfold Step.into? at h
  dsimp only at h
  split at h
  · cases h
  · split at h <;> first | rfl | cases h

/-- Data into which a leaf has been put are a container. -/
theorem Puts.isContainer {path : Path} {leaf node result : Value} (h : Puts path leaf node result)
    (hpath : path ≠ []) : result.isContainer = true := by
  have hplace := h .null
  cases path with
  | nil => exact absurd rfl hpath
  | cons s path =>
    rw [List.map_cons] at hplace
    cases path with
    | nil =>
      rw [List.map_nil, place] at hplace
      split at hplace
      · cases hplace
      · split at hplace
        · cases hplace
        · next hset =>
          cases hplace
          exact isContainer_of_set hset
    | cons t path =>
      rw [List.map_cons, place] at hplace
      split at hplace
      · cases hplace
      · split at hplace
        · next hinto =>
          split at hplace
          · obtain rfl := congrArg Prod.fst hplace
            exact isContainer_replace (isContainer_of_into hinto)
          · cases hplace
        · split at hplace
          · cases hplace
          · next hset =>
            obtain rfl := congrArg Prod.fst hplace
            exact isContainer_replace (isContainer_of_set hset)

end Value

open Value

/-- A step leads to a new place of a container `node`: it can be set, and `fill v` is the container
with `v` there. -/
structure Step.Slot (s : Step) (node : Value) (fill : Value → Value) : Prop where
  readable : s.Readable
  vacant : s.into? node = none
  set_eq : ∀ v, s.set node v = .ok (fill v)
  into_eq : ∀ v, v.isContainer = true → s.into? (fill v) = some v
  replace_eq : ∀ v w, s.replace (fill v) w = fill w

/-- A mapping has a place at every new key. -/
theorem Step.slot_key {done : Entries Value} {name : String}
    (h : done.lookup (.str name) = none) :
    Slot (.key name) (.dict done) fun v => .dict (done ++ [(.str name, v)]) where
  readable := trivial
  vacant := by simp only [into?, asKey, h]
  set_eq v := by rw [set, Entries.insert_of_absent h]
  into_eq v hv := by
    simp only [into?, asKey, Entries.lookup_append, h, Option.none_or, Entries.lookup, if_true]
    split
    · next heq =>
      obtain rfl := Option.some.inj heq
      cases hv
    · rfl
  replace_eq v w := by
    simp only [replace, asKey, Entries.insert_append h, Entries.insert, if_true]

/-- Every index of a list can be read. -/
theorem Step.readable_index {n : Nat} (h : n < maxItems) : (index n).Readable := by
  have hmax : maxItems < 10 ^ 19 := by decide
  have hpow : 10 ^ 19 ≤ 10 ^ Number.maxDigits := Nat.pow_le_pow_right (by decide) (by decide)
  show n < 10 ^ Number.maxDigits
  omega

/-- A list that is not as long as can be has a place after its last item. -/
theorem Step.slot_index {done : List Value} (h : done.length < maxItems) :
    Slot (.index done.length) (.list done) fun v => .list (done ++ [v]) where
  readable := readable_index h
  vacant := by simp [into?]
  set_eq v := by
    have hcheck : checkIndex done.length done.length = .ok () := by
      unfold checkIndex
      rw [if_neg (Nat.lt_irrefl _), Nat.add_sub_cancel_left, if_neg (by decide),
        if_neg (Nat.not_lt.2 h)]
    simp [set, hcheck, setIndex, Except.map]
  into_eq v hv := by
    simp only [into?, List.getElem?_concat_length]
    split
    · next heq =>
      obtain rfl := Option.some.inj heq
      cases hv
    · rfl
  replace_eq v w := by simp [replace]

namespace Value

/-- A leaf one step further down. -/
def under (s : Step) (l : Path × Value) : Path × Value := (s :: l.1, l.2)

section Slot

variable {s : Step} {node : Value} {fill : Value → Value} (hslot : s.Slot node fill)

include hslot

/-- A leaf is put at a new place. -/
theorem Puts.leaf (leaf : Value) : Puts [s] leaf node (fill leaf) := by
  intro key
  rw [List.map_cons, List.map_nil, place, Step.step_segment hslot.readable]
  dsimp only
  rw [hslot.set_eq]

/-- The first leaf below a new place makes a container there. -/
theorem Puts.first {t : Step} {path : Path} {leaf result : Value}
    (h : Puts (t :: path) leaf (containerFor t) result) :
    Puts (s :: t :: path) leaf node (fill result) := by
  intro key
  rw [List.map_cons, List.map_cons, place, Step.step_segment hslot.readable]
  dsimp only
  rw [hslot.vacant]
  dsimp only
  rw [hslot.set_eq]
  dsimp only
  -- The container is empty when the leaf is put into it, as `h` supposes.
  have hplace := h key
  rw [List.map_cons, containerFor] at hplace
  rw [hplace, hslot.replace_eq]

/-- A further leaf below a place is put into the container there. -/
theorem Puts.under {path : Path} {leaf child result : Value} (hpath : path ≠ [])
    (hchild : child.isContainer = true) (h : Puts path leaf child result) :
    Puts (s :: path) leaf (fill child) (fill result) := by
  intro key
  cases path with
  | nil => exact absurd rfl hpath
  | cons t path =>
    have hplace := h key
    rw [List.map_cons] at hplace
    rw [List.map_cons, List.map_cons, place, Step.step_segment hslot.readable]
    dsimp only
    rw [hslot.into_eq child hchild]
    dsimp only
    rw [if_pos hchild, hplace, hslot.replace_eq]

/-- Leaves below a place are put into the container there. -/
theorem Builds.under {leaves : List (Path × Value)} (hpaths : ∀ l ∈ leaves, l.1 ≠ [])
    {child result : Value} (hchild : child.isContainer = true) (h : Builds leaves child result) :
    Builds (leaves.map (under s)) (fill child) (fill result) := by
  induction leaves generalizing child with
  | nil =>
    obtain rfl := h
    rfl
  | cons l leaves ih =>
    obtain ⟨path, leaf⟩ := l
    obtain ⟨next, hput, hrest⟩ := h
    have hpath : path ≠ [] := hpaths _ List.mem_cons_self
    -- The container stays one, so the next leaf is put into it as well.
    refine ⟨fill next, hput.under hslot hpath hchild, ?_⟩
    exact ih (fun l hl => hpaths l (List.mem_cons_of_mem _ hl)) (hput.isContainer hpath) hrest

end Slot

/-- A value comes back from its leaves: it is its only leaf, or its leaves build it from the empty
container that the first of them asks for. -/
def Regrows (v : Value) : Prop :=
  leaves v = [([], v)] ∨
    ∃ t path leaf rest, leaves v = (t :: path, leaf) :: rest ∧ (∀ l ∈ rest, l.1 ≠ []) ∧
      Builds (leaves v) (containerFor t) v

/-- A value that comes back from its leaves has a leaf. -/
theorem Regrows.leaves_ne_nil {v : Value} (h : v.Regrows) : leaves v ≠ [] := by
  rcases h with h | ⟨t, path, leaf, rest, h, -⟩ <;> rw [h] <;> exact List.cons_ne_nil _ _

/-- The leaves of a value, put in below a new place, leave the value there. -/
theorem Builds.child {s : Step} {node : Value} {fill : Value → Value} (hslot : s.Slot node fill)
    {v : Value} (h : v.Regrows) : Builds ((leaves v).map (Value.under s)) node (fill v) := by
  rcases h with hleaf | ⟨t, path, leaf, rest, hleaves, hpaths, hbuild⟩
  -- A value without a path below it is itself the leaf.
  · rw [hleaf]
    exact ⟨fill v, Puts.leaf hslot v, rfl⟩
  -- The first leaf makes the container, and the others are put into it.
  · rw [hleaves] at hbuild ⊢
    obtain ⟨next, hput, hrest⟩ := hbuild
    exact ⟨fill next, Puts.first hslot hput,
      hrest.under hslot hpaths (hput.isContainer (List.cons_ne_nil _ _))⟩

end Value

end ParamCheck
