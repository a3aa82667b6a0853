import ParamCheck.Proofs.Nested.Links
import ParamCheck.Proofs.Nested.Reordering

/-!
# Containers that building has made

Nested data that are being built consist of containers that building has made and of values that have been
put in as a whole (`Linked.Grown`). Each of the former has a number of its own and a place of its own, so
that replacing it replaces just what stands there (`Grown.renew_child`), and the data stay of this kind
when something is set or replaced in one of them (`Grown.set`, `Grown.replace`).
-/

namespace ParamCheck

namespace Linked

/-- The keys of a mapping are texts, each of them once. -/
def Keyed : Linked → Prop
  | dict _ entries => (∀ e ∈ entries, ∃ k, e.1 = .str k) ∧ Entries.Distinct entries
  | _ => True

/-- A container with this number is in a value. -/
inductive Occurs (j : Nat) : Linked → Prop where
  | self {v : Linked} (h : v.id? = some j) : Occurs j v
  | child {v w : Linked} {s : Step} (hchild : v.child? s = some w) (h : Occurs j w) : Occurs j v

/-- What occurs in a value keeps to its bound. -/
theorem Within.lt_of_occurs {n j : Nat} {v : Linked} (h : Within n v) (hoccurs : Occurs j v) :
    j < n := by
  induction hoccurs with
  | self hid =>
    cases h with
    | leaf h => cases hid
    | list hid' h => exact Option.some.inj hid ▸ hid'
    | dict hid' h => exact Option.some.inj hid ▸ hid'
  | child hchild hoccurs ih => exact ih (h.child hchild)

/-- Data that have been built, as they stand at a path. The containers that building has made have numbers
from `base` on, each of which stands at its own place only. Everything else has been put in as a whole,
containers at one of the paths `P`. -/
inductive Grown (base : Nat) (place : Nat → Path) (P : Path → Prop) : Path → Linked → Prop where
  | stored {q : Path} {v : Linked} (hv : Within base v) (h : v.isContainer = true → P q) :
      Grown base place P q v
  | made {q : Path} {v : Linked} {i : Nat} (hid : v.id? = some i) (hbase : base ≤ i)
      (hplace : place i = q) (hkeyed : v.Keyed)
      (h : ∀ s w, v.child? s = some w → Grown base place P (q ++ [s]) w) : Grown base place P q v

/-! ## Steps in a container -/

variable {node node' v : Linked} {s t : Step}

/-- What has been set stands where the step leads. -/
theorem child?_set (h : node.set s v = .ok node') : node'.child? s = some v := by
  cases node with
  | leaf w => cases s <;> cases h
  | list id items =>
    cases s with
    | key k => cases h
    | index n =>
      obtain ⟨u, -, rfl⟩ := map_eq_ok_iff.1 h
      rw [child?, Step.getElem?_setIndex, if_pos rfl]
  | dict id entries =>
    cases s with
    | key k =>
      obtain rfl := Except.ok.inj h
      rw [child?, Step.asKey, Entries.lookup_insert, if_pos rfl]
    | index n => cases h

/-- Where another step leads there is after setting what was there before, or a null. -/
theorem child?_set_of_ne (hst : s ≠ t) (h : node.set s v = .ok node') {w : Linked}
    (hw : node'.child? t = some w) : node.child? t = some w ∨ w = .leaf .null := by
  cases node with
  | leaf w => cases s <;> cases h
  | list id items =>
    cases s with
    | key k => cases h
    | index n =>
      obtain ⟨u, -, rfl⟩ := map_eq_ok_iff.1 h
      cases t with
      | key k => cases hw
      | index m =>
        rw [child?, Step.getElem?_setIndex, if_neg fun heq => hst (congrArg Step.index heq)] at hw
        split at hw
        · exact .inl hw
        · split at hw
          · exact .inr (Option.some.inj hw).symm
          · cases hw
  | dict id entries =>
    cases s with
    | key k =>
      obtain rfl := Except.ok.inj h
      have hkey : ¬(Value.str k).key? = t.asKey.key? := fun hkey => hst (Step.asKey_inj hkey)
      rw [child?, Entries.lookup_insert, if_neg hkey] at hw
      exact .inl hw
    | index n => cases h

/-- What has been replaced stands where the step leads. -/
theorem child?_replace {w : Linked} (h : node.child? s = some w) (v : Linked) :
    (node.replace s v).child? s = some v := by
  cases node with
  | leaf w => cases s <;> cases h
  | list id items =>
    cases s with
    | key k => cases h
    | index n =>
      obtain ⟨hn, -⟩ := List.getElem?_eq_some_iff.1 h
      rw [replace, child?, List.getElem?_set_self hn]
  | dict id entries => rw [replace, child?, Entries.lookup_insert, if_pos rfl]

/-- Replacing what a step leads to leaves what stands where another one leads. -/
theorem child?_replace_of_ne (hst : s ≠ t) (node v : Linked) :
    (node.replace s v).child? t = node.child? t := by
  cases node with
  | leaf w => cases s <;> rfl
  | list id items =>
    cases s with
    | key k => rfl
    | index n =>
      cases t with
      | key k => rfl
      | index m => exact List.getElem?_set_ne fun heq => hst (congrArg Step.index heq)
  | dict id entries =>
    show Entries.lookup _ _ = Entries.lookup _ _
    rw [Entries.lookup_insert]
    exact if_neg fun hkey => hst (Step.asKey_inj hkey)

/-- A container in which a step has been set is the same container. -/
theorem id?_set (h : node.set s v = .ok node') : node'.id? = node.id? := by
  cases node with
  | leaf w => cases s <;> cases h
  | list id items =>
    cases s with
    | key k => cases h
    | index n =>
      obtain ⟨u, -, rfl⟩ := map_eq_ok_iff.1 h
      rfl
  | dict id entries =>
    cases s with
    | key k =>
      obtain rfl := Except.ok.inj h
      rfl
    | index n => cases h

/-- A container in which something has been replaced is the same container. -/
theorem id?_replace (node : Linked) (s : Step) (v : Linked) : (node.replace s v).id? = node.id? := by
  cases node <;> cases s <;> rfl

/-- Setting a key of a mapping whose keys are texts leaves it one. -/
theorem Keyed.insert {id : Nat} {entries : Entries Linked} (h : Keyed (dict id entries)) (k : String)
    (v : Linked) : Keyed (dict id (entries.insert (.str k) v)) := by
  refine ⟨fun e he => ?_, h.2.insert _ _⟩
  rcases Entries.mem_insert he with he | ⟨hkey, -⟩
  · exact h.1 e he
  · exact ⟨k, Value.eq_str_of_key? hkey⟩

/-- Setting a step keeps the keys texts. -/
theorem Keyed.set (hkeyed : node.Keyed) (h : node.set s v = .ok node') : node'.Keyed := by
  cases node with
  | leaf w => cases s <;> cases h
  | list id items =>
    cases s with
    | key k => cases h
    | index n =>
      obtain ⟨u, -, rfl⟩ := map_eq_ok_iff.1 h
      trivial
  | dict id entries =>
    cases s with
    | key k =>
      obtain rfl := Except.ok.inj h
      exact hkeyed.insert k v
    | index n => cases h

/-- What stands in a mapping whose keys are texts stands at a key. -/
theorem Keyed.eq_key {id : Nat} {entries : Entries Linked} (h : Keyed (dict id entries)) {l : Value}
    {w : Linked} (hw : entries.lookup l = some w) :
    ∃ k, l.key? = (Value.str k).key? ∧ (dict id entries).child? (.key k) = some w := by
  obtain ⟨l', hl', hkey⟩ := Entries.exists_mem_of_lookup hw
  obtain ⟨k, rfl⟩ := h.1 _ hl'
  refine ⟨k, hkey.symm, ?_⟩
  rw [child?, Step.asKey, Entries.lookup_congr hkey, hw]

/-- Replacing what a step leads to keeps the keys texts. -/
theorem Keyed.replace (hkeyed : node.Keyed) {w : Linked} (h : node.child? s = some w) (v : Linked) :
    (node.replace s v).Keyed := by
  cases node with
  | leaf w => cases s <;> cases h
  | list id items => cases s <;> trivial
  | dict id entries =>
    obtain ⟨k, hkey, -⟩ := hkeyed.eq_key h
    obtain rfl : s = .key k := Step.asKey_inj (t := .key k) hkey
    exact hkeyed.insert k v

/-- A new container for a segment is empty, and has its number. -/
theorem emptyFor_spec (n : Nat) (next : Segment) :
    (emptyFor n next).id? = some n ∧ (emptyFor n next).Keyed ∧
      (∀ s, (emptyFor n next).child? s = none) ∧ Within (n + 1) (emptyFor n next) ∧
      (emptyFor n next).plain = Value.emptyFor next := by
  cases next with
  | name token =>
    exact ⟨rfl, ⟨nofun, List.Pairwise.nil⟩, fun s => by cases s <;> rfl,
      .dict (Nat.lt_succ_self n) nofun, rfl⟩
  | position token =>
    exact ⟨rfl, trivial, fun s => by cases s <;> rfl, .list (Nat.lt_succ_self n) nofun, rfl⟩

/-! ## Replacing a container -/

variable {j i : Nat}

/-- Replacing a container that is not in a value but below one step of it. -/
theorem renew_eq_replace (hid : node.id? = some i) (hij : i ≠ j) (hkeyed : node.Keyed) {w : Linked}
    (hw : node.child? s = some w) (new : Linked)
    (hothers : ∀ t u, s ≠ t → node.child? t = some u → renew j new u = u) :
    renew j new node = node.replace s (renew j new w) := by
  cases node with
  | leaf v => cases hid
  | list id items =>
    obtain rfl := Option.some.inj hid
    cases s with
    | key k => cases hw
    | index n =>
      obtain ⟨hn, -⟩ := List.getElem?_eq_some_iff.1 hw
      have hitem : items[n]? = some w := hw
      rw [renew_list, if_neg hij, replace]
      refine congrArg (list id) (List.ext_getElem? fun m => ?_)
      rw [List.getElem?_map, List.getElem?_set, if_pos hn]
      split
      · next hnm => rw [← hnm, hitem, Option.map_some]
      · next hnm =>
        cases hm : items[m]? with
        | none => rfl
        | some u =>
          exact congrArg some (hothers (.index m) u (fun heq => hnm (Step.index.inj heq)) hm)
  | dict id entries =>
    obtain rfl := Option.some.inj hid
    rw [renew_dict, if_neg hij, replace]
    have hpresent : Entries.lookup entries s.asKey = some w := hw
    refine congrArg (dict id) (Entries.ext_lookup ?_ ?_ fun l => ?_)
    · exact hkeyed.2.of_keys (Entries.keys_mapValues _ _)
    · rw [Entries.keys_mapValues, Entries.keys_insert_of_present hpresent]
    · rw [Entries.lookup_mapValues, Entries.lookup_insert]
      split
      · next hkey => rw [← Entries.lookup_congr hkey, hpresent, Option.map_some]
      · next hkey =>
        cases hl : Entries.lookup entries l with
        | none => rfl
        | some u =>
          obtain ⟨k, hk, hchild⟩ := hkeyed.eq_key hl
          refine congrArg some (hothers (.key k) u (fun heq => hkey ?_) hchild)
          rw [heq, hk]
          rfl

/-- A value is left alone if its container is another one and everything in it is left alone. -/
theorem renew_eq_self (hid : node.id? = some i) (hij : i ≠ j) (hkeyed : node.Keyed) (new : Linked)
    (hall : ∀ s w, node.child? s = some w → renew j new w = w) : renew j new node = node := by
  cases node with
  | leaf v => rfl
  | list id items =>
    obtain rfl := Option.some.inj hid
    rw [renew_list, if_neg hij]
    refine congrArg (list id) (List.ext_getElem? fun m => ?_)
    rw [List.getElem?_map]
    cases hm : items[m]? with
    | none => rfl
    | some u => exact congrArg some (hall (.index m) u hm)
  | dict id entries =>
    obtain rfl := Option.some.inj hid
    rw [renew_dict, if_neg hij]
    refine congrArg (dict id) (Entries.ext_lookup ?_ (Entries.keys_mapValues _ _) fun l => ?_)
    · exact hkeyed.2.of_keys (Entries.keys_mapValues _ _)
    · rw [Entries.lookup_mapValues]
      cases hl : Entries.lookup entries l with
      | none => rfl
      | some u =>
        obtain ⟨k, -, hchild⟩ := hkeyed.eq_key hl
        exact congrArg some (hall (.key k) u hchild)

namespace Grown

variable {base : Nat} {place place' : Nat → Path} {P : Path → Prop} {q : Path}

/-- Replacing a container that has its place elsewhere leaves a value alone. -/
theorem renew_of_elsewhere (h : Grown base place P q v) (hj : base ≤ j) (hplace : ¬q <+: place j)
    (new : Linked) : renew j new v = v := by
  induction h with
  | stored hv h => exact hv.renew_of_le hj new
  | @made q v i hid hbase hq hkeyed h ih =>
    have hij : i ≠ j := by
      rintro rfl
      exact hplace (hq ▸ List.prefix_rfl)
    refine renew_eq_self hid hij hkeyed new fun s w hw => ih s w hw fun hbelow => ?_
    exact hplace ((List.prefix_append q [s]).trans hbelow)

/-- A container that building has made occurs at or below its place. -/
theorem prefix_of_occurs (hoccurs : Occurs j v) (hj : base ≤ j) :
    ∀ {q}, Grown base place P q v → q <+: place j := by
  induction hoccurs with
  | @self v hid =>
    intro q h
    cases h with
    | stored hv h => exact absurd hj (Nat.not_le.2 (hv.lt_of_occurs (.self hid)))
    | made hid' hbase hplace hkeyed h =>
      obtain rfl := Option.some.inj (hid'.symm.trans hid)
      exact hplace ▸ List.prefix_rfl
  | @child v w s hchild hoccurs ih =>
    intro q h
    cases h with
    | stored hv h => exact absurd hj (Nat.not_le.2 (hv.lt_of_occurs (.child hchild hoccurs)))
    | made hid' hbase hplace hkeyed h => exact (List.prefix_append q [s]).trans (ih (h s w hchild))

/-- What stands in a container that building has made. -/
theorem child (h : Grown base place P q node) (hid : node.id? = some i) (hi : base ≤ i)
    {w : Linked} (hw : node.child? s = some w) : Grown base place P (q ++ [s]) w := by
  cases h with
  | stored hv h => exact absurd hi (Nat.not_le.2 (hv.lt_of_occurs (.self hid)))
  | made hid' hbase hplace hkeyed h => exact h s w hw

/-- What is replaced below a step of a container is replaced in the container. -/
theorem renew_child (h : Grown base place P q node) (hid : node.id? = some i) (hi : base ≤ i)
    {w : Linked} (hw : node.child? s = some w) (hj : base ≤ j) (hoccurs : Occurs j w) (new : Linked) :
    renew j new node = node.replace s (renew j new w) := by
  cases h with
  | stored hv h => exact absurd hi (Nat.not_le.2 (hv.lt_of_occurs (.self hid)))
  | made hid' hbase hplace hkeyed h =>
    obtain rfl := Option.some.inj (hid'.symm.trans hid)
    have hbelow := prefix_of_occurs hoccurs hj (h s w hw)
    refine renew_eq_replace hid' ?_ hkeyed hw new fun t u hst hu => ?_
    · rintro rfl
      have hlength := (hplace ▸ hbelow).length_le
      rw [List.length_append, List.length_singleton] at hlength
      omega
    · refine (h t u hu).renew_of_elsewhere hj (fun hother => hst ?_) new
      -- Both steps are the next one on the way to the place of the container.
      obtain ⟨x, hx⟩ := hbelow
      obtain ⟨y, hy⟩ := hother
      rw [← hy, List.append_assoc, List.append_assoc] at hx
      exact (List.cons.inj (List.append_cancel_left hx)).1

/-- Places of other containers do not matter. -/
theorem congr_place (h : Grown base place P q v) {n : Nat} (hv : Within n v)
    (hplace : ∀ k < n, place' k = place k) : Grown base place' P q v := by
  induction h with
  | stored hw h => exact .stored hw h
  | made hid hbase hq hkeyed h ih =>
    refine .made hid hbase ((hplace _ (hv.lt_of_occurs (.self hid))).trans hq) hkeyed ?_
    exact fun s w hw => ih s w hw (hv.child hw)

/-- Data in which a place has been replaced. -/
theorem replace (h : Grown base place P q node) (hid : node.id? = some i) (hi : base ≤ i)
    {w : Linked} (hw : node.child? s = some w) (hv : Grown base place P (q ++ [s]) v) :
    Grown base place P q (node.replace s v) := by
  cases h with
  | stored hw' h => exact absurd hi (Nat.not_le.2 (hw'.lt_of_occurs (.self hid)))
  | made hid' hbase hplace hkeyed h =>
    refine .made ((id?_replace node s v).trans hid') hbase hplace (hkeyed.replace hw v) ?_
    intro t u hu
    by_cases hst : s = t
    · obtain rfl := hst
      obtain rfl := Option.some.inj ((child?_replace hw v).symm.trans hu)
      exact hv
    · exact h t u ((child?_replace_of_ne hst node v).symm.trans hu)

/-- Data in which a place has been set. -/
theorem set (h : Grown base place P q node) (hid : node.id? = some i) (hi : base ≤ i)
    (hset : node.set s v = .ok node') (hv : Grown base place P (q ++ [s]) v) :
    Grown base place P q node' := by
  cases h with
  | stored hw h => exact absurd hi (Nat.not_le.2 (hw.lt_of_occurs (.self hid)))
  | made hid' hbase hplace hkeyed h =>
    refine .made ((id?_set hset).trans hid') hbase hplace (hkeyed.set hset) fun t u hu => ?_
    by_cases hst : s = t
    · obtain rfl := hst
      obtain rfl := Option.some.inj ((child?_set hset).symm.trans hu)
      exact hv
    · rcases child?_set_of_ne hst hset hu with hu | rfl
      · exact h t u hu
      · exact .stored (.leaf rfl) nofun

end Grown

end Linked

end ParamCheck
