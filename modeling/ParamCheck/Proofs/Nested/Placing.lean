import ParamCheck.Proofs.Nested.Gathering

/-!
# One more leaf

`Value.Places` says how a value is put where a key leads: step by step, through what is there or what is
made on the way. If it succeeds, the value is one more leaf of the data (`Places.gathered`). It does
succeed if the path of the key parts from those of all leaves that are there, unless memory runs out
(`Places.exhausts`). That takes an index that no list can have (`Places.exists_index`), and no leaf that
is put in has one on its path (`Places.fits`).
-/

namespace ParamCheck

/-- Neither of two paths begins the other one. -/
def Path.Free (p q : Path) : Prop := ¬p <+: q ∧ ¬q <+: p

instance (p q : Path) : Decidable (p.Free q) := inferInstanceAs (Decidable (_ ∧ _))

/-- Being free of one another goes both ways. -/
theorem Path.Free.symm {p q : Path} (h : p.Free q) : q.Free p := ⟨h.2, h.1⟩

/-- Paths are free of one another after a common step if they are as a whole. -/
theorem Path.Free.of_cons {s : Step} {p q : Path} (h : Free (s :: p) (s :: q)) : p.Free q :=
  ⟨fun hpq => h.1 ((List.prefix_cons_inj s).2 hpq), fun hqp => h.2 ((List.prefix_cons_inj s).2 hqp)⟩

/-- Paths that part do so after a common step. -/
theorem Path.Apart.of_cons {s : Step} {p q : Path} (h : Apart (s :: p) (s :: q)) : p.Apart q := by
  cases h with
  | keys hne => exact absurd rfl hne
  | indexes hne => exact absurd rfl hne
  | under s h => exact h

/-- Parting goes both ways. -/
theorem Path.Apart.symm {p q : Path} (h : p.Apart q) : q.Apart p := by
  induction h with
  | keys hne p q => exact .keys hne.symm q p
  | indexes hne p q => exact .indexes hne.symm q p
  | under s h ih => exact .under s ih

/-- Paths that part are free of one another. -/
theorem Path.Apart.free {p q : Path} (h : p.Apart q) : p.Free q := by
  induction h with
  | keys hne p q =>
    have hstep := fun heq => hne (Step.key.inj heq)
    exact ⟨fun h => hstep (List.cons_prefix_cons.1 h).1,
      fun h => hstep (List.cons_prefix_cons.1 h).1.symm⟩
  | indexes hne p q =>
    have hstep := fun heq => hne (Step.index.inj heq)
    exact ⟨fun h => hstep (List.cons_prefix_cons.1 h).1,
      fun h => hstep (List.cons_prefix_cons.1 h).1.symm⟩
  | under s h ih =>
    exact ⟨fun h => ih.1 ((List.prefix_cons_inj s).1 h), fun h => ih.2 ((List.prefix_cons_inj s).1 h)⟩

/-- Paths that are free of one another part, unless they jar. -/
theorem Path.Free.apart {p q : Path} (h : p.Free q) (hjars : ¬p.Jars q) : p.Apart q := by
  induction p generalizing q with
  | nil => exact absurd List.nil_prefix h.1
  | cons s p ih =>
    cases q with
    | nil => exact absurd List.nil_prefix h.2
    | cons t q =>
      by_cases hst : s = t
      · obtain rfl := hst
        exact .under s (ih h.of_cons fun hpq => hjars (.under s hpq))
      · cases s with
        | key k =>
          cases t with
          | key l => exact .keys (fun heq => hst (congrArg Step.key heq)) p q
          | index n => exact absurd (.key_index k n p q) hjars
        | index m =>
          cases t with
          | key k => exact absurd (.index_key m k p q) hjars
          | index n => exact .indexes (fun heq => hst (congrArg Step.index heq)) p q

/-- Every index on the path is one that a list can have. -/
def Path.Fits (p : Path) : Prop := ∀ n, Step.index n ∈ p → n < Step.maxItems

/-- The steps of a path fit one by one. -/
theorem Path.fits_cons_iff {s : Step} {p : Path} :
    Fits (s :: p) ↔ (∀ n, s = .index n → n < Step.maxItems) ∧ p.Fits := by
  unfold Fits
  simp only [List.mem_cons, or_imp, forall_and]
  exact and_congr_left fun _ => forall_congr' fun n => imp_congr_left eq_comm

/-- There is no memory for a list that is to be made longer. -/
inductive Fault.Exhausts : Fault → Prop where
  | overflow : Exhausts .overflow
  | tooLong : Exhausts .tooLong

namespace Step

/-- The step goes into data of this kind: a key into a mapping, an index into a list. -/
def Enters (s : Step) (node : Value) : Prop :=
  (∃ k entries, s = .key k ∧ node = .dict entries) ∨ ∃ n items, s = .index n ∧ node = .list items

/-- A place in data that the step enters can be set unless there is no memory. -/
theorem Enters.exhausts {s : Step} {node v : Value} {e : Fault} (h : s.Enters node)
    (hset : s.set node v = .error e) : e.Exhausts := by
  rcases h with ⟨k, entries, rfl, rfl⟩ | ⟨n, items, rfl, rfl⟩
  · cases hset
  · have hcheck := map_eq_error_iff.1 hset
    unfold checkIndex at hcheck
    split at hcheck
    · cases hcheck
    · split at hcheck
      · obtain rfl := Except.error.inj hcheck
        exact .overflow
      · split at hcheck
        · obtain rfl := Except.error.inj hcheck
          exact .tooLong
        · cases hcheck

/-- Memory runs out only for an index that no list can have. -/
theorem exists_index_of_set {s : Step} {node v : Value} {e : Fault}
    (hset : s.set node v = .error e) (he : e.Exhausts) : ∃ n, s = .index n ∧ maxItems ≤ n := by
  cases s with
  | key k =>
    cases node <;> cases hset <;> cases he
  | index n =>
    refine ⟨n, rfl, ?_⟩
    cases node with
    | list items =>
      have hcheck := map_eq_error_iff.1 hset
      have hmax : maxItems ≤ maxGrowth := by decide
      unfold checkIndex at hcheck
      split at hcheck
      · cases hcheck
      · split at hcheck
        · omega
        · split at hcheck
          · omega
          · cases hcheck
    | _ => cases hset; cases he

/-- Only mappings and lists are gone into. -/
theorem Enters.isContainer {s : Step} {node : Value} (h : s.Enters node) :
    node.isContainer = true := by
  rcases h with ⟨k, entries, -, rfl⟩ | ⟨n, items, -, rfl⟩ <;> rfl

/-- A place that has been set can be replaced: it is as if it were set to the last value. -/
theorem set_replace {s : Step} {node node' v : Value} (h : s.set node v = .ok node') (w : Value) :
    s.set node w = .ok (s.replace node' w) := by
  cases node with
  | dict entries =>
    cases s with
    | key k =>
      obtain rfl := Except.ok.inj h
      rw [set, replace, asKey, Entries.insert_insert]
    | index n => cases h
  | list items =>
    cases s with
    | key k => cases h
    | index n =>
      obtain ⟨u, hcheck, rfl⟩ := map_eq_ok_iff.1 h
      refine map_eq_ok_iff.2 ⟨u, hcheck, ?_⟩
      rw [replace, setIndex, setIndex, List.set_set]
  | _ => cases s <;> cases h

/-- The container that is made for a segment is entered by its step. -/
theorem enters_emptyFor {key : Value} {segment : Segment} {s : Step}
    (h : segment.step key = .ok s) : s.Enters (Value.emptyFor segment) := by
  unfold Segment.step at h
  cases segment with
  | name token =>
    obtain rfl := Except.ok.inj h
    exact .inl ⟨_, _, rfl, rfl⟩
  | position token =>
    dsimp only at h
    split at h
    · cases h
    · split at h
      · obtain rfl := Except.ok.inj h
        exact .inr ⟨_, _, rfl, rfl⟩
      · cases h

end Step

/-- Segments are read as steps one by one. -/
theorem Segment.mapM_step_eq_ok_iff {key : Value} {segment : Segment} {rest : List Segment}
    {p : Path} : (segment :: rest).mapM (Segment.step key) = .ok p ↔
      ∃ s q, segment.step key = .ok s ∧ rest.mapM (Segment.step key) = .ok q ∧ p = s :: q := by
  rw [List.mapM_cons]
  constructor
  · intro h
    obtain ⟨s, hs, h⟩ := bind_eq_ok_iff.1 h
    obtain ⟨q, hq, hp⟩ := bind_eq_ok_iff.1 h
    exact ⟨s, q, hs, hq, (Except.ok.inj hp).symm⟩
  · rintro ⟨s, q, hs, hq, rfl⟩
    rw [hs, hq]
    rfl

/-- The first segment is read as the first step, and the others as the rest of the path. -/
theorem Segment.of_mapM_step {key : Value} {segment : Segment} {rest : List Segment} {s t : Step}
    {p : Path} (hstep : segment.step key = .ok s)
    (hp : (segment :: rest).mapM (Segment.step key) = .ok (t :: p)) :
    s = t ∧ rest.mapM (Segment.step key) = .ok p := by
  obtain ⟨s', p', hstep', hrest, hcons⟩ := mapM_step_eq_ok_iff.1 hp
  obtain ⟨rfl, rfl⟩ := List.cons.inj hcons
  exact ⟨Except.ok.inj (hstep.symm.trans hstep'), hrest⟩

/-- A piece of a key that cannot be read does not take memory. -/
theorem Segment.not_exhausts {key : Value} {segment : Segment} {e : Fault}
    (h : segment.step key = .error e) : ¬e.Exhausts := by
  unfold Segment.step at h
  cases segment with
  | name token => cases h
  | position token =>
    dsimp only at h
    split at h
    · cases h
      exact nofun
    · split at h
      · cases h
      · cases h
        exact nofun

/-- The steps of segments, up to the first that cannot be read. -/
def Segment.steps (key : Value) (segments : List Segment) : Path :=
  segments.foldr (fun s path =>
    match s.step key with
    | .ok step => step :: path
    | .error _ => []) []

/-- The first step that can be read is followed by the others. -/
theorem Segment.steps_cons {key : Value} {segment : Segment} {s : Step}
    (h : segment.step key = .ok s) (rest : List Segment) :
    steps key (segment :: rest) = s :: steps key rest := by
  rw [steps, List.foldr_cons, h]
  rfl

namespace Value

/-- Whatever container is made for a segment, no leaves are below it. -/
theorem gathered_emptyFor (segment : Segment) : Gathered [] (emptyFor segment) := by
  cases segment with
  | name token => exact .nil_dict
  | position token => exact .nil_list

namespace Gathered

variable {ls : List (Path × Value)} {node child : Value} {s : Step}

/-- What a step leads into has been gathered from the leaves below the step, and there are some. -/
theorem of_into (h : Gathered ls node) (hinto : s.into? node = some child) :
    Gathered (beneath s ls) child ∧ beneath s ls ≠ [] ∧
      ∀ w, s.set node w = .ok (s.replace node w) := by
  unfold Step.into? at hinto
  cases h with
  | leaf h =>
    cases node with
    | dict => cases h
    | list => cases h
    | _ => cases hinto
  | @dict _ entries hkeys hdistinct hsteps hnonempty h =>
    dsimp only at hinto
    have hlookup : entries.lookup s.asKey = some child := by
      split at hinto
      · cases hinto
      · exact hinto
    -- Only keys lead into a mapping.
    obtain ⟨l, hl, hkey⟩ := Entries.exists_mem_of_lookup hlookup
    obtain ⟨k, rfl⟩ := hkeys _ hl
    cases s with
    | index n => cases hkey
    | key k' =>
      obtain rfl := Value.str.inj (Value.eq_str_of_key? hkey.symm)
      exact ⟨h _ _ hlookup, hnonempty _ _ hlookup, fun w => rfl⟩
  | @list _ items hsteps hlast hnull h =>
    cases s with
    | key k => cases hinto
    | index n =>
      dsimp only at hinto
      have hitem : items[n]? = some child ∧ child ≠ .null := by
        split at hinto
        · cases hinto
        · next hne => exact ⟨hinto, fun heq => hne (heq ▸ hinto)⟩
      have hne : beneath (.index n) ls ≠ [] := fun hnil => hitem.2 (hnull n child hitem.1 hnil)
      obtain ⟨hn, -⟩ := List.getElem?_eq_some_iff.1 hitem.1
      refine ⟨h n child hitem.1 hne, hne, fun w => ?_⟩
      have hgrow : n + 1 - items.length = 0 := by omega
      rw [Step.set, Step.checkIndex, if_pos hn, Step.setIndex, hgrow, List.replicate_zero,
        List.append_nil]
      rfl

/-- No leaf is below a step that leads into nothing, if no path ends after the step. -/
theorem beneath_of_into (h : Gathered ls node) (hinto : s.into? node = none)
    (hfree : ∀ x, ([s], x) ∉ ls) : beneath s ls = [] := by
  by_contra hne
  obtain ⟨⟨p, x⟩, hmem⟩ := List.exists_mem_of_ne_nil _ hne
  have hl := mem_beneath.1 hmem
  have hnull : ∀ {w}, Gathered (beneath s ls) w → w ≠ .null := by
    rintro w hw rfl
    generalize hbeneath : beneath s ls = ms at hw
    cases hw with
    | leaf h =>
      have hmem' : ([], Value.null) ∈ beneath s ls := by
        rw [hbeneath]
        exact List.mem_cons_self
      exact hfree _ (mem_beneath.1 hmem')
  unfold Step.into? at hinto
  cases h with
  | leaf h => cases List.mem_singleton.1 hl
  | @dict _ entries hkeys hdistinct hsteps hnonempty h =>
    obtain ⟨k, q, hpath, hk⟩ := hsteps _ hl
    obtain rfl := (List.cons.inj hpath).1
    obtain ⟨w, hw⟩ := Option.ne_none_iff_exists'.1 hk
    dsimp only [Step.asKey] at hinto
    rw [hw] at hinto
    split at hinto
    · next heq => exact hnull (h k w hw) (Option.some.inj heq)
    · cases hinto
  | @list _ items hsteps hlast hnull' h =>
    obtain ⟨n, q, hpath, hn⟩ := hsteps _ hl
    obtain rfl := (List.cons.inj hpath).1
    have hw : items[n]? = some items[n] := List.getElem?_eq_getElem hn
    dsimp only at hinto
    rw [hw] at hinto
    split at hinto
    · next heq => exact hnull (h n _ hw hne) (Option.some.inj heq)
    · cases hinto

end Gathered

/-- Data with a leaf below some step are a mapping or a list. -/
theorem Gathered.isContainer {ls : List (Path × Value)} {node x : Value} {s : Step} {p : Path}
    (h : Gathered ls node) (hmem : (s :: p, x) ∈ ls) : node.isContainer = true := by
  cases h with
  | leaf h => cases List.mem_singleton.1 hmem
  | dict hkeys hdistinct hsteps hnonempty h => rfl
  | list hsteps hlast hnull h => rfl

/-- No other path ends after a step that begins a path that is free of it. -/
theorem not_mem_of_free {ls : List (Path × Value)} {s : Step} {p : Path}
    (hfree : ∀ l ∈ ls, Path.Free (s :: p) l.1) (x : Value) : ([s], x) ∉ ls :=
  fun hmem => (hfree _ hmem).2 ⟨p, rfl⟩

/-- The paths below a step are free of what is left of a path that is free of them. -/
theorem free_beneath {ls : List (Path × Value)} {s : Step} {p : Path}
    (hfree : ∀ l ∈ ls, Path.Free (s :: p) l.1) : ∀ l ∈ beneath s ls, Path.Free p l.1 :=
  fun _ hl => (hfree _ (mem_beneath.1 hl)).of_cons

/-- The paths below a step part from what is left of a path that parts from them. -/
theorem apart_beneath {ls : List (Path × Value)} {s : Step} {p : Path}
    (hapart : ∀ l ∈ ls, Path.Apart (s :: p) l.1) : ∀ l ∈ beneath s ls, Path.Apart p l.1 :=
  fun _ hl => (hapart _ (mem_beneath.1 hl)).of_cons

/-- The paths below a step fit if all paths do. -/
theorem fits_beneath {ls : List (Path × Value)} (s : Step) (hfits : ∀ l ∈ ls, Path.Fits l.1) :
    ∀ l ∈ beneath s ls, Path.Fits l.1 :=
  fun _ hl => (Path.fits_cons_iff.1 (hfits _ (mem_beneath.1 hl))).2

/-- A list of leaves whose paths fit is not too long. -/
theorem Gathered.length_le {ls : List (Path × Value)} {items : List Value}
    (h : Gathered ls (.list items)) (hfits : ∀ l ∈ ls, Path.Fits l.1) :
    items.length ≤ Step.maxItems := by
  by_contra hlong
  -- Some path goes through the last item.
  obtain ⟨m, hm, hne⟩ := (h.lt_length_iff Step.maxItems).1 (by omega)
  obtain ⟨l, hl⟩ := List.exists_mem_of_ne_nil _ hne
  have hlt := (Path.fits_cons_iff.1 (hfits _ (mem_beneath.1 hl))).1 m rfl
  omega

/-- An index that can be set in data whose leaves have paths that fit is one that a list can have. -/
theorem Gathered.lt_of_set {ls : List (Path × Value)} {node node' v : Value} {n : Nat}
    (h : Gathered ls node) (hfits : ∀ l ∈ ls, Path.Fits l.1)
    (hset : (Step.index n).set node v = .ok node') : n < Step.maxItems := by
  cases node with
  | list items =>
    have hlength := h.length_le hfits
    obtain ⟨_, hcheck, -⟩ := map_eq_ok_iff.1 hset
    unfold Step.checkIndex at hcheck
    split at hcheck
    · omega
    · split at hcheck
      · cases hcheck
      · split at hcheck
        · cases hcheck
        · omega
  | _ => cases hset

/-- The first step of a path goes into data that hold leaves if their paths part from it. -/
theorem Gathered.enters {ls : List (Path × Value)} {node : Value} {s : Step} {p : Path}
    (h : Gathered ls node) (hne : ls ≠ []) (hapart : ∀ l ∈ ls, Path.Apart (s :: p) l.1) :
    s.Enters node := by
  obtain ⟨l, hl⟩ := List.exists_mem_of_ne_nil _ hne
  have hl' := hapart l hl
  cases h with
  | leaf h =>
    obtain rfl := List.mem_singleton.1 hl
    cases hl'
  | dict hkeys hdistinct hsteps hnonempty h =>
    obtain ⟨k, q, hq, -⟩ := hsteps l hl
    rw [hq] at hl'
    cases hl' <;> exact .inl ⟨_, _, rfl, rfl⟩
  | list hsteps hlast hnull h =>
    obtain ⟨n, q, hq, -⟩ := hsteps l hl
    rw [hq] at hl'
    cases hl' <;> exact .inr ⟨_, _, rfl, rfl⟩

/-- How a value is put where the segments of a key lead, and what goes wrong if it is not. -/
inductive Places (key v : Value) : List Segment → Value → Value → Option Fault → Prop where
  /-- The first segment is no step. -/
  | unread {segment : Segment} {rest : List Segment} {node : Value} {e : Fault}
      (hstep : segment.step key = .error e) : Places key v (segment :: rest) node node (some e)
  /-- The step cannot be set, neither to the value nor to a container on the way to it. -/
  | refused {segment : Segment} {rest : List Segment} {node w : Value} {s : Step} {e : Fault}
      (hstep : segment.step key = .ok s) (hset : s.set node w = .error e) :
      Places key v (segment :: rest) node node (some e)
  /-- The value stands where the last step leads. -/
  | last {segment : Segment} {node node' : Value} {s : Step}
      (hstep : segment.step key = .ok s) (hset : s.set node v = .ok node') :
      Places key v [segment] node node' none
  /-- A scalar is in the way. -/
  | scalar {segment next : Segment} {rest : List Segment} {node child : Value} {s : Step}
      (hstep : segment.step key = .ok s) (hinto : s.into? node = some child)
      (hchild : child.isContainer = false) :
      Places key v (segment :: next :: rest) node node (some (.scalarOnPath key))
  /-- The step leads into a container, in which the way goes on. -/
  | into {segment next : Segment} {rest : List Segment} {node child child' : Value} {s : Step}
      {e : Option Fault} (hstep : segment.step key = .ok s) (hinto : s.into? node = some child)
      (hchild : child.isContainer = true) (h : Places key v (next :: rest) child child' e) :
      Places key v (segment :: next :: rest) node (s.replace node child') e
  /-- The step leads to nothing, or to a null, and an empty container takes that place. -/
  | made {segment next : Segment} {rest : List Segment} {node made child' : Value} {s : Step}
      {e : Option Fault} (hstep : segment.step key = .ok s) (hinto : s.into? node = none)
      (hset : s.set node (emptyFor next) = .ok made)
      (h : Places key v (next :: rest) (emptyFor next) child' e) :
      Places key v (segment :: next :: rest) node (s.replace made child') e

/-- A value is put in step by step. -/
theorem places_of_place {key v : Value} (segments : List Segment) :
    ∀ {node node' e}, segments ≠ [] → place key segments node v = (node', e) →
      Places key v segments node node' e := by
  induction segments with
  | nil => exact fun h => absurd rfl h
  | cons segment rest ih =>
    intro node node' e _ hplace
    cases hstep : segment.step key with
    | error e' =>
      have hunread : (node, some e') = (node', e) := by
        cases rest <;> rwa [place, hstep] at hplace
      obtain ⟨rfl, rfl⟩ := Prod.mk.inj hunread
      exact .unread hstep
    | ok s =>
      cases rest with
      | nil =>
        rw [place, hstep] at hplace
        dsimp only at hplace
        split at hplace
        · next hset =>
          obtain ⟨rfl, rfl⟩ := Prod.mk.inj hplace
          exact .refused hstep hset
        · next hset =>
          obtain ⟨rfl, rfl⟩ := Prod.mk.inj hplace
          exact .last hstep hset
      | cons next rest =>
        rw [place, hstep] at hplace
        dsimp only at hplace
        split at hplace
        · next child hinto =>
          split at hplace
          · next hchild =>
            obtain ⟨rfl, rfl⟩ := Prod.mk.inj hplace
            exact .into hstep hinto hchild (ih (List.cons_ne_nil _ _) rfl)
          · next hchild =>
            obtain ⟨rfl, rfl⟩ := Prod.mk.inj hplace
            exact .scalar hstep hinto (Bool.not_eq_true _ ▸ hchild)
        · next hinto =>
          split at hplace
          · next hset =>
            obtain ⟨rfl, rfl⟩ := Prod.mk.inj hplace
            exact .refused hstep hset
          · next hset =>
            obtain ⟨rfl, rfl⟩ := Prod.mk.inj hplace
            exact .made hstep hinto hset (ih (List.cons_ne_nil _ _) rfl)

namespace Places

variable {key v node node' : Value} {segments : List Segment}

/-- A leaf that is put in successfully has a path and is one more leaf. -/
theorem gathered {result : Option Fault} (h : Places key v segments node node' result)
    (hresult : result = none) (hv : v.isContainer = false) :
    ∀ {ls}, Gathered ls node → node.isContainer = true →
      (∀ p, segments.mapM (Segment.step key) = .ok p → ∀ l ∈ ls, Path.Free p l.1) →
        ∃ s p, segments.mapM (Segment.step key) = .ok (s :: p) ∧
          Gathered (ls ++ [(s :: p, v)]) node' := by
  induction h with
  | unread hstep => cases hresult
  | refused hstep hset => cases hresult
  | scalar hstep hinto hchild => cases hresult
  | @last segment node node' s hstep hset =>
    intro ls hnode hcontainer hfree
    have hpath : [segment].mapM (Segment.step key) = .ok [s] :=
      Segment.mapM_step_eq_ok_iff.2 ⟨s, [], hstep, rfl, rfl⟩
    -- No leaf is below the step, since its path would go on where this one ends.
    have hnil : beneath s ls = [] := by
      refine List.eq_nil_iff_forall_not_mem.2 fun l hl => ?_
      exact (free_beneath (hfree [s] hpath) l hl).1 List.nil_prefix
    refine ⟨s, [], hpath, hnode.set hcontainer ?_ hset⟩
    rw [hnil]
    exact .leaf hv
  | @into segment next rest node child child' s result hstep hinto hchild h ih =>
    intro ls hnode hcontainer hfree
    have hpath : ∀ {p}, (next :: rest).mapM (Segment.step key) = .ok p →
        (segment :: next :: rest).mapM (Segment.step key) = .ok (s :: p) :=
      fun hp => Segment.mapM_step_eq_ok_iff.2 ⟨s, _, hstep, hp, rfl⟩
    obtain ⟨hgathered, -, hset⟩ := hnode.of_into hinto
    obtain ⟨t, p, hp, hgathered'⟩ := ih hresult hgathered hchild
      fun p hp => free_beneath (hfree _ (hpath hp))
    exact ⟨s, t :: p, hpath hp, hnode.set hcontainer hgathered' (hset _)⟩
  | @made segment next rest node made child' s result hstep hinto hset h ih =>
    intro ls hnode hcontainer hfree
    have hempty : (emptyFor next).isContainer = true := by cases next <;> rfl
    obtain ⟨t, p, hp, hgathered⟩ := ih hresult (gathered_emptyFor next) hempty
      fun _ _ l hl => absurd hl List.not_mem_nil
    have hpath : (segment :: next :: rest).mapM (Segment.step key) = .ok (s :: t :: p) :=
      Segment.mapM_step_eq_ok_iff.2 ⟨s, _, hstep, hp, rfl⟩
    -- It is as if the container had been put there with the leaf in it.
    refine ⟨s, t :: p, hpath, hnode.set hcontainer ?_ (Step.set_replace hset _)⟩
    rw [hnode.beneath_of_into hinto (not_mem_of_free (hfree _ hpath))]
    exact hgathered

/-- If the paths of all leaves fit, then so does that of a leaf that is put in successfully. -/
theorem fits {result : Option Fault} (h : Places key v segments node node' result)
    (hresult : result = none) :
    ∀ {ls p}, Gathered ls node → (∀ l ∈ ls, Path.Fits l.1) →
      segments.mapM (Segment.step key) = .ok p → Path.Fits p := by
  have hset : ∀ {ls : List (Path × Value)} {node node' v : Value} {s : Step}, Gathered ls node →
      (∀ l ∈ ls, Path.Fits l.1) → s.set node v = .ok node' → ∀ n, s = .index n → n < Step.maxItems := by
    rintro ls node node' v s hnode hfits hset n rfl
    exact hnode.lt_of_set hfits hset
  induction h with
  | unread hstep => cases hresult
  | refused hstep hset => cases hresult
  | scalar hstep hinto hchild => cases hresult
  | last hstep hset' =>
    intro ls p hnode hfits hp
    obtain ⟨s, q, hs, hq, rfl⟩ := Segment.mapM_step_eq_ok_iff.1 hp
    obtain rfl := Except.ok.inj (hstep.symm.trans hs)
    obtain rfl := Except.ok.inj hq
    exact Path.fits_cons_iff.2 ⟨hset hnode hfits hset', by rintro n hn; cases hn⟩
  | @into segment next rest node child child' s result hstep hinto hchild h ih =>
    intro ls p hnode hfits hp
    obtain ⟨s, q, hs, hq, rfl⟩ := Segment.mapM_step_eq_ok_iff.1 hp
    obtain rfl := Except.ok.inj (hstep.symm.trans hs)
    obtain ⟨hgathered, -, hset'⟩ := hnode.of_into hinto
    exact Path.fits_cons_iff.2 ⟨hset hnode hfits (hset' child'),
      ih hresult hgathered (fits_beneath _ hfits) hq⟩
  | @made segment next rest node made child' s result hstep hinto hset' h ih =>
    intro ls p hnode hfits hp
    obtain ⟨s, q, hs, hq, rfl⟩ := Segment.mapM_step_eq_ok_iff.1 hp
    obtain rfl := Except.ok.inj (hstep.symm.trans hs)
    exact Path.fits_cons_iff.2 ⟨hset hnode hfits hset',
      ih hresult (gathered_emptyFor next) (fun l hl => absurd hl List.not_mem_nil) hq⟩

/-- A leaf whose path parts from those of the other leaves can be put in, unless memory runs out. -/
theorem exhausts {result : Option Fault} (h : Places key v segments node node' result)
    {e : Fault} (hresult : result = some e) :
    ∀ {ls s p}, Gathered ls node → s.Enters node →
      segments.mapM (Segment.step key) = .ok (s :: p) → (∀ l ∈ ls, Path.Apart (s :: p) l.1) →
        e.Exhausts := by
  induction h with
  | last hstep hset => cases hresult
  | unread hstep =>
    intro ls s p _ _ hp
    obtain ⟨_, _, hstep', -, -⟩ := Segment.mapM_step_eq_ok_iff.1 hp
    cases hstep.symm.trans hstep'
  | refused hstep hset =>
    intro ls s p _ henters hp _
    obtain ⟨rfl, -⟩ := Segment.of_mapM_step hstep hp
    obtain rfl := Option.some.inj hresult
    exact henters.exhausts hset
  | scalar hstep hinto hchild =>
    intro ls s p hnode _ hp hapart
    obtain ⟨rfl, hrest⟩ := Segment.of_mapM_step hstep hp
    obtain ⟨t, q, -, -, rfl⟩ := Segment.mapM_step_eq_ok_iff.1 hrest
    obtain ⟨hgathered, hne, -⟩ := hnode.of_into hinto
    -- The leaves below the step part from the path, so that the child is no scalar.
    have henters := hgathered.enters hne (apart_beneath hapart)
    cases hchild.symm.trans henters.isContainer
  | into hstep hinto hchild h ih =>
    intro ls s p hnode _ hp hapart
    obtain ⟨rfl, hrest⟩ := Segment.of_mapM_step hstep hp
    obtain ⟨t, q, -, -, rfl⟩ := Segment.mapM_step_eq_ok_iff.1 hrest
    obtain ⟨hgathered, hne, -⟩ := hnode.of_into hinto
    have hbeneath := apart_beneath hapart
    exact ih hresult hgathered (hgathered.enters hne hbeneath) hrest hbeneath
  | @made segment next rest node made child' s result hstep hinto hset h ih =>
    intro ls s p hnode _ hp hapart
    obtain ⟨rfl, hrest⟩ := Segment.of_mapM_step hstep hp
    obtain ⟨t, q, ht, -, rfl⟩ := Segment.mapM_step_eq_ok_iff.1 hrest
    exact ih hresult (gathered_emptyFor next) (Step.enters_emptyFor ht) hrest
      fun l hl => absurd hl List.not_mem_nil

/-- Memory runs out only for a path with an index that no list can have. -/
theorem exists_index {result : Option Fault} (h : Places key v segments node node' result)
    {e : Fault} (hresult : result = some e) (he : e.Exhausts) :
    ∃ n, Step.index n ∈ Segment.steps key segments ∧ Step.maxItems ≤ n := by
  have hlater : ∀ {s : Step} {path : Path}, (∃ n, Step.index n ∈ path ∧ Step.maxItems ≤ n) →
      ∃ n, Step.index n ∈ s :: path ∧ Step.maxItems ≤ n := by
    rintro s path ⟨n, hmem, hn⟩
    exact ⟨n, List.mem_cons_of_mem _ hmem, hn⟩
  induction h with
  | last hstep hset => cases hresult
  | unread hstep =>
    obtain rfl := Option.some.inj hresult
    exact absurd he (Segment.not_exhausts hstep)
  | refused hstep hset =>
    obtain rfl := Option.some.inj hresult
    obtain ⟨n, rfl, hn⟩ := Step.exists_index_of_set hset he
    rw [Segment.steps_cons hstep]
    exact ⟨n, List.mem_cons_self, hn⟩
  | scalar hstep hinto hchild =>
    obtain rfl := Option.some.inj hresult
    cases he
  | into hstep hinto hchild h ih =>
    rw [Segment.steps_cons hstep]
    exact hlater (ih hresult)
  | made hstep hinto hset h ih =>
    rw [Segment.steps_cons hstep]
    exact hlater (ih hresult)

end Places

end Value

end ParamCheck
