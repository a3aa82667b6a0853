import ParamCheck.Proofs.Nested.Placing

/-!
# Writing into data

`Value.child?` and `Value.follow?` say what stands in data, and this module says what becomes of that
when a step is set (`Step.child?_set`, `Step.child?_set_of_ne`) and when a value is put at the end of a
path (`Value.Writes`, `Places.writes`). The new value stands there (`Writes.follow_self`), and containers
stand on the way (`Writes.isContainer_above`), where no scalar but null was before
(`Writes.eq_null_of_above`). Along paths that are free of the one that is written to nothing changes, but
that a list which is made longer gets nulls (`Writes.follow_of_free`).
-/

namespace ParamCheck

namespace Step

/-- What different steps lead to stands under different keys of a mapping. -/
theorem asKey_inj {s t : Step} (h : s.asKey.key? = t.asKey.key?) : s = t := by
  cases s with
  | key k =>
    cases t with
    | key l => rw [Value.str.inj (Value.eq_str_of_key? h)]
    | index n => cases h
  | index n =>
    cases t with
    | key l => cases h
    | index m => exact congrArg Step.index (Int.ofNat.inj (Key.int.inj (Option.some.inj h)))

/-- What is found unless it is null. -/
theorem unlessNull_eq_some_iff {found : Option Value} {child : Value} :
    (match found with
      | some .null => none
      | other => other) = some child ↔ found = some child ∧ child ≠ .null := by
  split
  · constructor
    · intro h
      cases h
    · rintro ⟨h, hne⟩
      exact absurd (Option.some.inj h).symm hne
  · next hne =>
    refine ⟨fun h => ⟨h, ?_⟩, And.left⟩
    rintro rfl
    exact hne h

/-- A step leads into what stands there, unless that is null. -/
theorem into?_eq_some_iff {s : Step} {node child : Value} :
    s.into? node = some child ↔ node.child? s = some child ∧ child ≠ .null := by
  have hfound := @unlessNull_eq_some_iff (node.child? s) child
  cases node <;> cases s <;> exact hfound

/-- A step leads into nothing if nothing but null stands there. -/
theorem into?_eq_none_iff {s : Step} {node : Value} :
    s.into? node = none ↔ ∀ child, node.child? s = some child → child = .null := by
  rw [Option.eq_none_iff_forall_ne_some]
  simp only [ne_eq, into?_eq_some_iff]
  exact forall_congr' fun child => by tauto

/-- What has been set stands where the step leads. -/
theorem child?_set {s : Step} {node node' v : Value} (h : s.set node v = .ok node') :
    node'.child? s = some v := by
  cases node with
  | dict entries =>
    cases s with
    | key k =>
      obtain rfl := Except.ok.inj h
      rw [Value.child?, asKey, Entries.lookup_insert, if_pos rfl]
    | index n => cases h
  | list items =>
    cases s with
    | key k => cases h
    | index n =>
      obtain ⟨u, -, rfl⟩ := map_eq_ok_iff.1 h
      rw [Value.child?, getElem?_setIndex, if_pos rfl]
  | _ => cases s <;> cases h

/-- Setting a step leaves what stands where another one leads. A place that was not there can only
hold a null. -/
theorem child?_set_of_ne {s t : Step} (hst : s ≠ t) {node node' v : Value}
    (h : s.set node v = .ok node') :
    node'.child? t = node.child? t ∨ node.child? t = none ∧ node'.child? t = some .null := by
  cases node with
  | dict entries =>
    cases s with
    | key k =>
      obtain rfl := Except.ok.inj h
      left
      show Entries.lookup _ _ = Entries.lookup _ _
      rw [Entries.lookup_insert]
      exact if_neg fun hkey => hst (asKey_inj (s := .key k) hkey)
    | index n => cases h
  | list items =>
    cases s with
    | key k => cases h
    | index n =>
      obtain ⟨u, -, rfl⟩ := map_eq_ok_iff.1 h
      cases t with
      | key k => exact .inl rfl
      | index m =>
        have hnm : n ≠ m := fun heq => hst (congrArg Step.index heq)
        rw [Value.child?, Value.child?, getElem?_setIndex, if_neg hnm]
        by_cases hm : m < items.length
        · exact .inl (if_pos hm)
        · rw [if_neg hm, List.getElem?_eq_none (Nat.le_of_not_lt hm)]
          split
          · exact .inr ⟨rfl, rfl⟩
          · exact .inl rfl
  | _ => cases s <;> cases h

/-- What has been replaced stands where the step leads. -/
theorem child?_replace {s : Step} {node child : Value} (h : node.child? s = some child)
    (v : Value) : (s.replace node v).child? s = some v := by
  cases node with
  | dict entries => rw [replace, Value.child?, Entries.lookup_insert, if_pos rfl]
  | list items =>
    cases s with
    | key k => cases h
    | index n =>
      obtain ⟨hn, -⟩ := List.getElem?_eq_some_iff.1 h
      rw [replace, Value.child?, List.getElem?_set_self hn]
  | _ => cases h

/-- Replacing what a step leads to leaves what stands where another one leads. -/
theorem child?_replace_of_ne {s t : Step} (hst : s ≠ t) (node v : Value) :
    (s.replace node v).child? t = node.child? t := by
  cases node with
  | dict entries =>
    show Entries.lookup _ _ = Entries.lookup _ _
    rw [Entries.lookup_insert]
    exact if_neg fun hkey => hst (asKey_inj hkey)
  | list items =>
    cases s with
    | key k => rfl
    | index n =>
      cases t with
      | key k => rfl
      | index m =>
        exact List.getElem?_set_ne fun heq => hst (congrArg Step.index heq)
  | _ => cases s <;> rfl

/-- There is a container where a step leads somewhere. -/
theorem isContainer_of_child? {s : Step} {node child : Value} (h : node.child? s = some child) :
    node.isContainer = true := by
  cases node <;> first | rfl | cases h

end Step

namespace Value

/-- Whatever stands where another step leads stays there. A place that was not there can only hold a
null. -/
def KeepsOthers (s : Step) (node node' : Value) : Prop :=
  ∀ t, s ≠ t → node'.child? t = node.child? t ∨ node.child? t = none ∧ node'.child? t = some .null

/-- What becomes of data when `v` is put at the end of a path: the containers on the way are those that
are there, or new ones where nothing or a null is. -/
inductive Writes (v : Value) : Path → Value → Value → Prop where
  | last {s : Step} {node node' : Value} (hself : node'.child? s = some v)
      (hothers : KeepsOthers s node node') : Writes v [s] node node'
  | into {s : Step} {p : Path} {node node' child child' : Value} (hchild : node.child? s = some child)
      (hcontainer : child.isContainer = true) (hself : node'.child? s = some child')
      (hothers : KeepsOthers s node node') (h : Writes v p child child') : Writes v (s :: p) node node'
  | made {s : Step} {p : Path} {node node' new child' : Value}
      (hfree : ∀ child, node.child? s = some child → child = .null) (hnew : ∀ t, new.child? t = none)
      (hself : node'.child? s = some child') (hothers : KeepsOthers s node node')
      (h : Writes v p new child') : Writes v (s :: p) node node'

/-- A value that is put in successfully is written at the path of its key. -/
theorem Places.writes {key v node node' : Value} {segments : List Segment} {result : Option Fault}
    (h : Places key v segments node node' result) (hresult : result = none) :
    ∃ p, segments.mapM (Segment.step key) = .ok p ∧ Writes v p node node' := by
  induction h with
  | unread hstep => cases hresult
  | refused hstep hset => cases hresult
  | scalar hstep hinto hchild => cases hresult
  | @last segment node node' s hstep hset =>
    exact ⟨[s], Segment.mapM_step_eq_ok_iff.2 ⟨s, [], hstep, rfl, rfl⟩,
      .last (Step.child?_set hset) fun t hst => Step.child?_set_of_ne hst hset⟩
  | @into segment next rest node child child' s result hstep hinto hchild h ih =>
    obtain ⟨p, hp, hwrites⟩ := ih hresult
    obtain ⟨hthere, -⟩ := Step.into?_eq_some_iff.1 hinto
    exact ⟨s :: p, Segment.mapM_step_eq_ok_iff.2 ⟨s, p, hstep, hp, rfl⟩,
      .into hthere hchild (Step.child?_replace hthere child')
        (fun t hst => .inl (Step.child?_replace_of_ne hst node child')) hwrites⟩
  | @made segment next rest node made child' s result hstep hinto hset h ih =>
    obtain ⟨p, hp, hwrites⟩ := ih hresult
    have hempty : ∀ t, (emptyFor next).child? t = none := by
      intro t
      cases next <;> cases t <;> rfl
    refine ⟨s :: p, Segment.mapM_step_eq_ok_iff.2 ⟨s, p, hstep, hp, rfl⟩,
      .made (Step.into?_eq_none_iff.1 hinto) hempty
        (Step.child?_replace (Step.child?_set hset) child') (fun t hst => ?_) hwrites⟩
    rw [Step.child?_replace_of_ne hst]
    exact Step.child?_set_of_ne hst hset

/-- Nothing stands along a path that goes on after a value into which no step leads. -/
theorem follow?_of_no_child {node : Value} (hnode : ∀ t, node.child? t = none) {p : Path}
    (hp : p ≠ []) : follow? p node = none := by
  cases p with
  | nil => exact absurd rfl hp
  | cons s p => rw [follow?, hnode, Option.bind_none]

/-- A path is followed part by part. -/
theorem follow?_append (p q : Path) (v : Value) :
    follow? (p ++ q) v = (follow? p v).bind (follow? q) := by
  induction p generalizing v with
  | nil => rfl
  | cons s p ih =>
    rw [List.cons_append, follow?, follow?]
    cases v.child? s with
    | none => rfl
    | some c => exact ih c

/-- Below another step only places that were not there can change. -/
theorem KeepsOthers.follow {s t : Step} {node node' : Value} (h : KeepsOthers s node node') (hst : s ≠ t)
    (q : Path) : follow? (t :: q) node' = follow? (t :: q) node ∨
      follow? (t :: q) node = none ∧ follow? (t :: q) node' = some .null := by
  rcases h t hst with hsame | ⟨hnone, hnull⟩
  · rw [follow?, follow?, hsame]
    exact .inl rfl
  · rw [follow?, follow?, hnone, hnull, Option.bind_none, Option.bind_some]
    cases q with
    | nil => exact .inr ⟨rfl, rfl⟩
    | cons u q => exact .inl rfl

/-- No step leads into a scalar. -/
theorem child?_of_scalar {v : Value} (hv : v.isContainer = false) (s : Step) : v.child? s = none := by
  cases v with
  | dict => cases hv
  | list => cases hv
  | _ => rfl

namespace Writes

variable {v node node' : Value} {p q : Path}

/-- What has been written stands at the end of its path. -/
theorem follow_self (h : Writes v p node node') : follow? p node' = some v := by
  induction h with
  | last hself hothers => rw [follow?, hself]; rfl
  | into hchild hcontainer hself hothers h ih => rw [follow?, hself, Option.bind_some, ih]
  | made hfree hnew hself hothers h ih => rw [follow?, hself, Option.bind_some, ih]

/-- On the way to what has been written there are containers. -/
theorem isContainer_above (h : Writes v p node node') :
    ∀ {q}, q <+: p → q ≠ p → ∃ c, follow? q node' = some c ∧ c.isContainer = true := by
  -- The data themselves are a container in any case, since the first step leads into them.
  have hroot : ∀ {s : Step} {node' x : Value}, node'.child? s = some x →
      ∃ c, follow? [] node' = some c ∧ c.isContainer = true :=
    fun hself => ⟨_, rfl, Step.isContainer_of_child? hself⟩
  have hlater : ∀ {s : Step} {p q : Path} {node' child' : Value}, node'.child? s = some child' →
      (∀ {q}, q <+: p → q ≠ p → ∃ c, follow? q child' = some c ∧ c.isContainer = true) →
        q <+: s :: p → q ≠ s :: p → ∃ c, follow? q node' = some c ∧ c.isContainer = true := by
    intro s p q node' child' hself ih hq hne
    cases q with
    | nil => exact hroot hself
    | cons t q =>
      obtain ⟨rfl, hrest⟩ := List.cons_prefix_cons.1 hq
      obtain ⟨c, hc, hcontainer⟩ := ih hrest fun heq => hne (heq ▸ rfl)
      exact ⟨c, by rw [follow?, hself, Option.bind_some, hc], hcontainer⟩
  induction h with
  | last hself hothers =>
    intro q hq hne
    cases q with
    | nil => exact hroot hself
    | cons t q =>
      obtain ⟨rfl, hrest⟩ := List.cons_prefix_cons.1 hq
      exact absurd (List.prefix_nil.1 hrest ▸ rfl) hne
  | into hchild hcontainer hself hothers h ih => exact hlater hself ih
  | made hfree hnew hself hothers h ih => exact hlater hself ih

/-- No scalar but null was on the way to what has been written. -/
theorem eq_null_of_above (h : Writes v p node node') :
    ∀ {q w}, q <+: p → q ≠ p → follow? q node = some w → w.isContainer = false →
      q = [] ∨ w = .null := by
  induction h with
  | last hself hothers =>
    intro q w hq hne hw hscalar
    cases q with
    | nil => exact .inl rfl
    | cons t q =>
      obtain ⟨rfl, hrest⟩ := List.cons_prefix_cons.1 hq
      exact absurd (List.prefix_nil.1 hrest ▸ rfl) hne
  | into hchild hcontainer hself hothers h ih =>
    intro q w hq hne hw hscalar
    cases q with
    | nil => exact .inl rfl
    | cons t q =>
      obtain ⟨rfl, hrest⟩ := List.cons_prefix_cons.1 hq
      rw [follow?, hchild, Option.bind_some] at hw
      rcases ih hrest (fun heq => hne (heq ▸ rfl)) hw hscalar with rfl | hnull
      · obtain rfl := Option.some.inj hw
        cases hscalar.symm.trans hcontainer
      · exact .inr hnull
  | made hfree hnew hself hothers h ih =>
    intro q w hq hne hw hscalar
    cases q with
    | nil => exact .inl rfl
    | cons t q =>
      obtain ⟨rfl, -⟩ := List.cons_prefix_cons.1 hq
      obtain ⟨c, hc, hw⟩ := Option.bind_eq_some_iff.1 hw
      obtain rfl := hfree c hc
      cases q with
      | nil => exact .inr (Option.some.inj hw).symm
      | cons t q => cases hw

/-- What stands at the end of a path that is free of the one that is written to stays there. A place
that was not there can only hold a null. -/
theorem follow_of_free (h : Writes v p node node') :
    ∀ {q}, Path.Free p q → follow? q node' = follow? q node ∨
      follow? q node = none ∧ follow? q node' = some .null := by
  induction h with
  | @last s node node' hself hothers =>
    intro q hfree
    cases q with
    | nil => exact absurd List.nil_prefix hfree.2
    | cons t q =>
      refine hothers.follow (fun hst => ?_) q
      exact hfree.1 (hst ▸ (List.prefix_cons_inj _).2 List.nil_prefix)
  | @into s p node node' child child' hchild hcontainer hself hothers h ih =>
    intro q hfree
    cases q with
    | nil => exact absurd List.nil_prefix hfree.2
    | cons t q =>
      by_cases hst : s = t
      · obtain rfl := hst
        rw [follow?, follow?, hchild, hself, Option.bind_some, Option.bind_some]
        exact ih hfree.of_cons
      · exact hothers.follow hst q
  | @made s p node node' new child' hnull hnew hself hothers h ih =>
    intro q hfree
    cases q with
    | nil => exact absurd List.nil_prefix hfree.2
    | cons t q =>
      by_cases hst : s = t
      · obtain rfl := hst
        have hq : q ≠ [] := fun hnil => hfree.of_cons.2 (hnil ▸ List.nil_prefix)
        -- Nothing stood there, and nothing stands along such a path in the new container either.
        have hnone : follow? (s :: q) node = none := by
          rw [follow?]
          cases hc : node.child? s with
          | none => rfl
          | some c =>
            obtain rfl := hnull c hc
            exact follow?_of_no_child (fun t => child?_of_scalar rfl t) hq
        have hsame := ih hfree.of_cons
        rw [follow?_of_no_child hnew hq] at hsame
        rw [hnone, follow?, hself, Option.bind_some]
        exact hsame
      · exact hothers.follow hst q

/-- A scalar other than null stands nowhere where it did not stand before, but at the end of the path
that is written to. -/
theorem follow_of_scalar (h : Writes v p node node') (hv : v.isContainer = false) {w : Value}
    (hscalar : w.isContainer = false) (hw : w ≠ .null) (hne : p ≠ q)
    (hfollow : follow? q node' = some w) : follow? q node = some w := by
  by_cases hpq : p <+: q
  · -- Nothing stands along a path that goes on after the new value.
    obtain ⟨r, rfl⟩ := hpq
    have hr : r ≠ [] := fun hnil => hne (by rw [hnil, List.append_nil])
    rw [follow?_append, h.follow_self, Option.bind_some,
      follow?_of_no_child (child?_of_scalar hv) hr] at hfollow
    cases hfollow
  · by_cases hqp : q <+: p
    · obtain ⟨c, hc, hcontainer⟩ := h.isContainer_above hqp (Ne.symm hne)
      obtain rfl := Option.some.inj (hc.symm.trans hfollow)
      cases hscalar.symm.trans hcontainer
    · rcases h.follow_of_free ⟨hpq, hqp⟩ with hsame | ⟨-, hnull⟩
      · rwa [hsame] at hfollow
      · exact absurd (Option.some.inj (hfollow.symm.trans hnull)) hw

end Writes

end Value

end ParamCheck
