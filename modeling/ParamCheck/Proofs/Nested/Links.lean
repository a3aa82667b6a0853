import ParamCheck.Nested.Shared
import ParamCheck.Proofs.Nested.Writing

/-!
# Links

What a linked value is without its numbers goes with everything that is done to it (`Linked.into?_plain`,
`Linked.set_plain`), and a value that has been linked is the same without the numbers
(`Linked.ofValue_spec`). A container that is not in a value can be replaced without a trace
(`Linked.Within.renew_of_le`), and two containers can be replaced in either order if the one is not in the
value and comes with the other (`Linked.Within.renew_renew`). Numbers make no difference to the leaves, either
(`Linked.Within.leafy`).
-/

namespace ParamCheck

namespace Linked

/-- A list without numbers. -/
theorem plain_list (id : Nat) (items : List Linked) :
    (list id items).plain = .list (items.map plain) := by
  have hitems : ∀ items, plain.plainItems items = items.map plain := by
    intro items
    induction items with
    | nil => rfl
    | cons v rest ih => rw [plain.plainItems, ih, List.map_cons]
  rw [plain, hitems]

/-- A mapping without numbers. -/
theorem plain_dict (id : Nat) (entries : Entries Linked) :
    (dict id entries).plain = .dict (entries.mapValues plain) := by
  have hentries : ∀ entries : Entries Linked, plain.plainEntries entries = entries.mapValues plain := by
    intro entries
    induction entries with
    | nil => rfl
    | cons e rest ih =>
      obtain ⟨k, v⟩ := e
      rw [plain.plainEntries, ih]
      rfl
  rw [plain, hentries]

/-- A container is replaced in a list if it is not the list itself. -/
theorem renew_list (i : Nat) (new : Linked) (id : Nat) (items : List Linked) :
    renew i new (list id items) = if id = i then new else list id (items.map (renew i new)) := by
  have hitems : ∀ items, renew.renewItems i new items = items.map (renew i new) := by
    intro items
    induction items with
    | nil => rfl
    | cons v rest ih => rw [renew.renewItems, ih, List.map_cons]
  rw [renew, hitems]

/-- A container is replaced in a mapping if it is not the mapping itself. -/
theorem renew_dict (i : Nat) (new : Linked) (id : Nat) (entries : Entries Linked) :
    renew i new (dict id entries) =
      if id = i then new else dict id (entries.mapValues (renew i new)) := by
  have hentries : ∀ entries : Entries Linked,
      renew.renewEntries i new entries = entries.mapValues (renew i new) := by
    intro entries
    induction entries with
    | nil => rfl
    | cons e rest ih =>
      obtain ⟨k, v⟩ := e
      rw [renew.renewEntries, ih]
      rfl
  rw [renew, hentries]

/-- A container makes way for another one. -/
theorem renew_self {v : Linked} {i : Nat} (h : v.id? = some i) (new : Linked) :
    renew i new v = new := by
  cases v with
  | leaf v => cases h
  | list id items => rw [renew_list, if_pos (Option.some.inj h)]
  | dict id entries => rw [renew_dict, if_pos (Option.some.inj h)]

/-- The containers of a value have numbers below a bound, and its leaves are no containers. -/
inductive Within (n : Nat) : Linked → Prop where
  | leaf {v : Value} (h : v.isContainer = false) : Within n (leaf v)
  | list {id : Nat} {items : List Linked} (hid : id < n) (h : ∀ v ∈ items, Within n v) :
      Within n (list id items)
  | dict {id : Nat} {entries : Entries Linked} (hid : id < n) (h : ∀ e ∈ entries, Within n e.2) :
      Within n (dict id entries)

namespace Within

variable {n : Nat} {v : Linked}

/-- A bound can be raised. -/
theorem mono (h : Within n v) {m : Nat} (hnm : n ≤ m) : Within m v := by
  induction h with
  | leaf h => exact .leaf h
  | list hid h ih => exact .list (Nat.lt_of_lt_of_le hid hnm) ih
  | dict hid h ih => exact .dict (Nat.lt_of_lt_of_le hid hnm) ih

/-- A container that is not in a value cannot be replaced in it. -/
theorem renew_of_le (h : Within n v) {j : Nat} (hj : n ≤ j) (new : Linked) : renew j new v = v := by
  induction h with
  | leaf h => rfl
  | @list id items hid h ih =>
    rw [renew_list, if_neg (by omega), List.map_congr_left ih, List.map_id']
  | @dict id entries hid h ih =>
    have hentries : entries.mapValues (Linked.renew j new) = entries := by
      calc entries.mapValues (Linked.renew j new) = entries.map fun e => e :=
            List.map_congr_left fun e he => congrArg (e.1, ·) (ih e he)
        _ = entries := List.map_id' _
    rw [renew_dict, if_neg (by omega), hentries]

/-- A replaced container that keeps to the bound keeps the value to it. -/
theorem renew (h : Within n v) {new : Linked} (hnew : Within n new) (j : Nat) :
    Within n (renew j new v) := by
  induction h with
  | leaf h => exact .leaf h
  | @list id items hid h ih =>
    rw [renew_list]
    split
    · exact hnew
    · exact .list hid fun w hw => by
        obtain ⟨u, hu, rfl⟩ := List.mem_map.1 hw
        exact ih u hu
  | @dict id entries hid h ih =>
    rw [renew_dict]
    split
    · exact hnew
    · exact .dict hid fun e he => by
        obtain ⟨f, hf, rfl⟩ := List.mem_map.1 he
        exact ih f hf

/-- If a container is not in a value, then replacing it after another one is replacing it in that
other one. -/
theorem renew_renew {j : Nat} (h : Within j v) (i : Nat) (w new : Linked) :
    Linked.renew j new (Linked.renew i w v) = Linked.renew i (Linked.renew j new w) v := by
  induction h with
  | leaf h => rfl
  | @list id items hid h ih =>
    rw [renew_list, renew_list]
    split
    · rfl
    · rw [renew_list, if_neg (by omega), List.map_map]
      exact congrArg (Linked.list id) (List.map_congr_left ih)
  | @dict id entries hid h ih =>
    rw [renew_dict, renew_dict]
    split
    · rfl
    · rw [renew_dict, if_neg (by omega), Entries.mapValues_mapValues]
      congr 1
      exact List.map_congr_left fun e he => congrArg (e.1, ·) (ih e he)

/-- Numbers make no difference to whether a value is a container. -/
theorem isContainer_plain (h : Within n v) : v.plain.isContainer = v.isContainer := by
  cases h with
  | leaf h => exact h
  | list hid h => rw [plain_list]; rfl
  | dict hid h => rw [plain_dict]; rfl

end Within

/-! ## Steps -/

/-- What stands where a step leads, if there is such a place. -/
def child? (v : Linked) (s : Step) : Option Linked :=
  match v, s with
  | dict _ entries, s => Entries.lookup entries s.asKey
  | list _ items, .index n => items[n]?
  | _, _ => none

/-- Replace what a step leads to, which is there. -/
def replace (s : Step) (node v : Linked) : Linked :=
  match node, s with
  | dict id entries, s => dict id (Entries.insert entries s.asKey v)
  | list id items, .index n => list id (items.set n v)
  | node, _ => node

/-- What is found unless it is null. -/
theorem unlessNull_eq_some_iff {found : Option Linked} {child : Linked} :
    (match found with
      | some (.leaf .null) => none
      | other => other) = some child ↔ found = some child ∧ child ≠ .leaf .null := by
  split
  · constructor
    · intro h
      cases h
    · rintro ⟨h, hne⟩
      exact absurd (Option.some.inj h).symm hne
  · next hne =>
    refine ⟨fun h => ⟨h, ?_⟩, And.left⟩
    rintro rfl
    exact hne h

/-- A step leads into what stands there, unless that is null. -/
theorem into?_eq_some_iff {s : Step} {node child : Linked} :
    node.into? s = some child ↔ node.child? s = some child ∧ child ≠ .leaf .null := by
  have hfound := @unlessNull_eq_some_iff (node.child? s) child
  cases node <;> cases s <;> exact hfound

variable {n : Nat} {node : Linked}

/-- A step leads to the same place without numbers. -/
theorem child?_plain (h : Within n node) (s : Step) :
    node.plain.child? s = (node.child? s).map plain := by
  cases h with
  | leaf h =>
    rw [plain, Value.child?_of_scalar h]
    cases s <;> rfl
  | @list id items hid h =>
    rw [plain_list]
    cases s with
    | key k => rfl
    | index m => exact List.getElem?_map
  | @dict id entries hid h =>
    rw [plain_dict]
    exact Entries.lookup_mapValues _ _ _

/-- Only null is null without numbers. -/
theorem plain_eq_null_iff {v : Linked} : v.plain = .null ↔ v = .leaf .null := by
  cases v with
  | leaf v => exact ⟨fun h => congrArg leaf h, fun h => leaf.inj h⟩
  | list id items =>
    rw [plain_list]
    exact ⟨nofun, nofun⟩
  | dict id entries =>
    rw [plain_dict]
    exact ⟨nofun, nofun⟩

/-- A step leads into the same value without numbers. -/
theorem into?_plain (h : Within n node) (s : Step) :
    s.into? node.plain = (node.into? s).map plain := by
  cases hinto : node.into? s with
  | some child =>
    obtain ⟨hchild, hne⟩ := into?_eq_some_iff.1 hinto
    refine Step.into?_eq_some_iff.2 ⟨?_, fun hnull => hne (plain_eq_null_iff.1 hnull)⟩
    rw [child?_plain h, hchild]
    rfl
  | none =>
    refine Step.into?_eq_none_iff.2 fun w hw => ?_
    rw [child?_plain h] at hw
    obtain ⟨child, hchild, rfl⟩ := Option.map_eq_some_iff.1 hw
    by_contra hne
    have hsome := into?_eq_some_iff.2 ⟨hchild, fun hnull => hne (plain_eq_null_iff.2 hnull)⟩
    cases hinto.symm.trans hsome

/-- A step is set alike without numbers. -/
theorem set_plain (h : Within n node) (s : Step) (v : Linked) :
    s.set node.plain v.plain = (node.set s v).map plain := by
  cases h with
  | @leaf w h =>
    cases w with
    | list => cases h
    | dict => cases h
    | _ => cases s <;> rfl
  | @list id items hid h =>
    rw [plain_list]
    cases s with
    | key k => rfl
    | index m =>
      rw [Step.set, set, List.length_map]
      cases Step.checkIndex items.length m with
      | error e => rfl
      | ok u =>
        show Except.ok (Value.list _) = Except.ok (plain (list id _))
        rw [plain_list, Step.setIndex, Step.setIndex, List.map_set, List.map_append,
          List.map_replicate, List.length_map]
        rfl
  | @dict id entries hid h =>
    rw [plain_dict]
    cases s with
    | key k =>
      show Except.ok (Value.dict _) = Except.ok (plain (dict id _))
      rw [plain_dict, Entries.mapValues_insert]
    | index m => rfl

/-- What a step leads to is replaced alike without numbers. -/
theorem replace_plain (h : Within n node) (s : Step) (v : Linked) :
    s.replace node.plain v.plain = (node.replace s v).plain := by
  cases h with
  | @leaf w h =>
    cases w with
    | list => cases h
    | dict => cases h
    | _ => cases s <;> rfl
  | @list id items hid h =>
    rw [plain_list]
    cases s with
    | key k => exact (plain_list id items).symm
    | index m =>
      show Value.list _ = plain (list id _)
      rw [plain_list, List.map_set]
  | @dict id entries hid h =>
    rw [plain_dict]
    show Value.dict _ = plain (dict id _)
    rw [plain_dict, Entries.mapValues_insert]

/-- Setting a step keeps to a bound. -/
theorem Within.set (h : Within n node) {v node' : Linked} (hv : Within n v) {s : Step}
    (hset : node.set s v = .ok node') : Within n node' := by
  cases h with
  | leaf h => cases s <;> cases hset
  | @list id items hid h =>
    cases s with
    | key k => cases hset
    | index m =>
      obtain ⟨u, -, rfl⟩ := map_eq_ok_iff.1 hset
      refine .list hid fun w hw => ?_
      rcases List.mem_or_eq_of_mem_set hw with hw | rfl
      · rcases List.mem_append.1 hw with hw | hw
        · exact h w hw
        · rw [List.eq_of_mem_replicate hw]
          exact .leaf rfl
      · exact hv
  | @dict id entries hid h =>
    cases s with
    | key k =>
      obtain rfl := Except.ok.inj hset
      refine .dict hid fun e he => ?_
      rcases Entries.mem_insert he with he | ⟨-, hvalue⟩
      · exact h e he
      · rw [hvalue]
        exact hv
    | index m => cases hset

/-- Replacing what a step leads to keeps to a bound. -/
theorem Within.replace (h : Within n node) {v : Linked} (hv : Within n v) (s : Step) :
    Within n (node.replace s v) := by
  cases h with
  | leaf h => exact .leaf h
  | @list id items hid h =>
    cases s with
    | key k => exact .list hid h
    | index m =>
      refine .list hid fun w hw => ?_
      rcases List.mem_or_eq_of_mem_set hw with hw | rfl
      · exact h w hw
      · exact hv
  | @dict id entries hid h =>
    refine .dict hid fun e he => ?_
    rcases Entries.mem_insert he with he | ⟨-, hvalue⟩
    · exact h e he
    · rw [hvalue]
      exact hv

/-- What a step leads to keeps to the bound. -/
theorem Within.child (h : Within n node) {s : Step} {child : Linked}
    (hchild : node.child? s = some child) : Within n child := by
  cases h with
  | leaf h => cases s <;> cases hchild
  | list hid h =>
    cases s with
    | key k => cases hchild
    | index m => exact h child (List.mem_of_getElem? hchild)
  | dict hid h =>
    obtain ⟨l, hl, -⟩ := Entries.exists_mem_of_lookup hchild
    exact h _ hl

/-! ## Linking -/

mutual

/-- A linked value is the value without the numbers, and the numbers are used up from the first one
on. -/
theorem ofValue_spec (v : Value) (n : Nat) :
    ((ofValue v).run n).1.plain = v ∧ n ≤ ((ofValue v).run n).2 ∧
      Within ((ofValue v).run n).2 ((ofValue v).run n).1 := by
  match v with
  | .list items =>
    obtain ⟨hplain, hle, hwithin⟩ := ofItems_spec items (n + 1)
    refine ⟨?_, Nat.le_of_succ_le hle, .list hle hwithin⟩
    exact (plain_list n _).trans (congrArg Value.list hplain)
  | .dict entries =>
    obtain ⟨hplain, hle, hwithin⟩ := ofEntries_spec entries (n + 1)
    refine ⟨?_, Nat.le_of_succ_le hle, .dict hle hwithin⟩
    exact (plain_dict n _).trans (congrArg Value.dict hplain)
  | .null | .bool _ | .int _ | .float _ | .str _ | .bytes _ | .timestamp _ | .tuple _ | .set _ | .regex ..
  | .callback _ | .delimiters .. => exact ⟨rfl, Nat.le_refl n, .leaf rfl⟩

/-- Linked items are the items without the numbers. -/
theorem ofItems_spec (items : List Value) (n : Nat) :
    ((ofValue.ofItems items).run n).1.map plain = items ∧ n ≤ ((ofValue.ofItems items).run n).2 ∧
      ∀ v ∈ ((ofValue.ofItems items).run n).1, Within ((ofValue.ofItems items).run n).2 v := by
  match items with
  | [] => exact ⟨rfl, Nat.le_refl n, fun _ h => absurd h List.not_mem_nil⟩
  | v :: rest =>
    obtain ⟨hplain, hle, hwithin⟩ := ofValue_spec v n
    obtain ⟨hplain', hle', hwithin'⟩ := ofItems_spec rest ((ofValue v).run n).2
    refine ⟨?_, Nat.le_trans hle hle', List.forall_mem_cons.2 ⟨hwithin.mono hle', hwithin'⟩⟩
    exact congrArg₂ List.cons hplain hplain'

/-- Linked entries are the entries without the numbers. -/
theorem ofEntries_spec (entries : List (Value × Value)) (n : Nat) :
    Entries.mapValues plain ((ofValue.ofEntries entries).run n).1 = entries ∧
      n ≤ ((ofValue.ofEntries entries).run n).2 ∧
      ∀ e ∈ ((ofValue.ofEntries entries).run n).1, Within ((ofValue.ofEntries entries).run n).2 e.2 := by
  match entries with
  | [] => exact ⟨rfl, Nat.le_refl n, fun _ h => absurd h List.not_mem_nil⟩
  | (k, v) :: rest =>
    obtain ⟨hplain, hle, hwithin⟩ := ofValue_spec v n
    obtain ⟨hplain', hle', hwithin'⟩ := ofEntries_spec rest ((ofValue v).run n).2
    refine ⟨?_, Nat.le_trans hle hle', List.forall_mem_cons.2 ⟨hwithin.mono hle', hwithin'⟩⟩
    exact congrArg₂ List.cons (congrArg (k, ·) hplain) hplain'

end

/-! ## Leaves -/

/-- A leaf without numbers. -/
def plainLeaf (l : Path × Linked) : Path × Value := (l.1, l.2.plain)

/-- The leaves of a linked value are those of the value without the numbers, and keep to its bound. -/
def Leafy (n : Nat) (v : Linked) : Prop :=
  v.leaves.map plainLeaf = v.plain.leaves ∧ ∀ l ∈ v.leaves, Within n l.2

/-- The leaves below an entry or an item. -/
theorem Leafy.below {n : Nat} {v : Linked} (h : Leafy n v) (s : Step) :
    (v.leaves.map fun l => (s :: l.1, l.2)).map plainLeaf = v.plain.leaves.map fun l => (s :: l.1, l.2) := by
  rw [← h.1, List.map_map, List.map_map]
  rfl

/-- The leaves of the entries of a mapping. -/
theorem leafy_entries {n : Nat} {entries : Entries Linked} (h : ∀ e ∈ entries, Leafy n e.2) :
    (leaves.entryLeaves entries).map plainLeaf = Value.leaves.entryLeaves (entries.mapValues plain) ∧
      ∀ l ∈ leaves.entryLeaves entries, Within n l.2 := by
  induction entries with
  | nil => exact ⟨rfl, nofun⟩
  | cons e rest ih =>
    obtain ⟨k, v⟩ := e
    obtain ⟨hv, hrest⟩ := List.forall_mem_cons.1 h
    obtain ⟨hplain, hwithin⟩ := ih hrest
    rw [leaves.entryLeaves]
    constructor
    · rw [List.map_append, hv.below, hplain]
      rfl
    · intro l hl
      rcases List.mem_append.1 hl with hl | hl
      · obtain ⟨m, hm, rfl⟩ := List.mem_map.1 hl
        exact hv.2 m hm
      · exact hwithin l hl

/-- The leaves of the items of a list. -/
theorem leafy_items {n : Nat} {items : List Linked} (h : ∀ v ∈ items, Leafy n v) :
    ∀ i, (leaves.itemLeaves i items).map plainLeaf = Value.leaves.itemLeaves i (items.map plain) ∧
      ∀ l ∈ leaves.itemLeaves i items, Within n l.2 := by
  induction items with
  | nil => exact fun _ => ⟨rfl, nofun⟩
  | cons v rest ih =>
    intro i
    obtain ⟨hv, hrest⟩ := List.forall_mem_cons.1 h
    obtain ⟨hplain, hwithin⟩ := ih hrest (i + 1)
    rw [leaves.itemLeaves]
    constructor
    · rw [List.map_append, hv.below, hplain]
      rfl
    · intro l hl
      rcases List.mem_append.1 hl with hl | hl
      · obtain ⟨m, hm, rfl⟩ := List.mem_map.1 hl
        exact hv.2 m hm
      · exact hwithin l hl

/-- Numbers make no difference to the leaves. -/
theorem Within.leafy {n : Nat} {v : Linked} (h : Within n v) : Leafy n v := by
  induction h with
  | @leaf v h =>
    refine ⟨?_, List.forall_mem_singleton.2 (.leaf h)⟩
    exact (Value.leaves_of_scalar h).symm
  | @list id items hid h ih =>
    cases items with
    | nil => exact ⟨by rw [plain_list]; rfl, List.forall_mem_singleton.2 (.list hid h)⟩
    | cons v rest =>
      rw [Leafy, plain_list]
      exact leafy_items ih 0
  | @dict id entries hid h ih =>
    cases entries with
    | nil => exact ⟨by rw [plain_dict]; rfl, List.forall_mem_singleton.2 (.dict hid h)⟩
    | cons e rest =>
      rw [Leafy, plain_dict]
      exact leafy_entries ih

end Linked

end ParamCheck
