import ParamCheck.Proofs.Nested.RoundTrip
import ParamCheck.Proofs.Returns

/-!
# What gathered data hold

Data that have been gathered from leaves at their paths (`Value.Gathered`) hold nothing else: a mapping
has the keys that some path leads to, and a list has the items up to the greatest index that some path
leads to, with a null in every place to which none does. So they are determined by the leaves up to the
order of their keys (`Gathered.rearranged`), and the leaves determine what is found along a path
(`Gathered.follow_eq`, `Gathered.eq_null`). Setting what a step leads to gathers one more leaf
(`Gathered.set`).
-/

namespace ParamCheck

/-- Two paths that cannot be in the same data: at some step one goes to a key where the other one goes
to an index. -/
inductive Path.Jars : Path → Path → Prop where
  | key_index (k : String) (n : Nat) (p q : Path) : Jars (.key k :: p) (.index n :: q)
  | index_key (n : Nat) (k : String) (p q : Path) : Jars (.index n :: p) (.key k :: q)
  | under (s : Step) {p q : Path} (h : Jars p q) : Jars (s :: p) (s :: q)

namespace Step

variable {α : Type}

/-- The length of a list in which an index has been set. -/
theorem length_setIndex (null : α) (items : List α) (n : Nat) (v : α) :
    (setIndex null items n v).length = max items.length (n + 1) := by
  unfold setIndex
  rw [List.length_set, List.length_append, List.length_replicate]
  omega

/-- The items of a list in which an index has been set: missing ones before it are null. -/
theorem getElem?_setIndex (null : α) (items : List α) (n : Nat) (v : α) (m : Nat) :
    (setIndex null items n v)[m]? =
      if n = m then some v
      else if m < items.length then items[m]?
      else if m < n + 1 then some null else none := by
  have hlength : n < (items ++ List.replicate (n + 1 - items.length) null).length := by
    rw [List.length_append, List.length_replicate]
    omega
  unfold setIndex
  rw [List.getElem?_set, if_pos hlength]
  split
  · rfl
  · split
    · next hm => rw [List.getElem?_append_left hm]
    · next hm =>
      rw [List.getElem?_append_right (Nat.le_of_not_lt hm), List.getElem?_replicate]
      refine if_congr ?_ rfl rfl
      omega

end Step

namespace Value

/-- What stands where a step leads, if there is such a place. -/
def child? (v : Value) (s : Step) : Option Value :=
  match v, s with
  | dict entries, s => Entries.lookup entries s.asKey
  | list items, .index n => items[n]?
  | _, _ => none

/-- What stands at the end of a path, if there is such a place. -/
def follow? : Path → Value → Option Value
  | [], v => some v
  | s :: path, v => (v.child? s).bind (follow? path)

/-- The same data up to the order of the keys of mappings. -/
inductive Rearranged : Value → Value → Prop where
  | refl (v : Value) : Rearranged v v
  | list {items items' : List Value} (hlength : items.length = items'.length)
      (h : ∀ (n : Nat) (v w : Value), items[n]? = some v → items'[n]? = some w → Rearranged v w) :
      Rearranged (.list items) (.list items')
  | dict {entries entries' : Entries Value} (hkeys : entries.keys.Perm entries'.keys)
      (h : ∀ k v w, entries.lookup k = some v → entries'.lookup k = some w → Rearranged v w) :
      Rearranged (.dict entries) (.dict entries')

/-- The leaves below a step, with what is left of their paths. -/
def beneath (s : Step) (ls : List (Path × Value)) : List (Path × Value) :=
  ls.filterMap fun l =>
    match l.1 with
    | [] => none
    | t :: path => if t = s then some (path, l.2) else none

/-- A leaf is below a step if its path begins with the step. -/
theorem mem_beneath {s : Step} {ls : List (Path × Value)} {p : Path} {v : Value} :
    (p, v) ∈ beneath s ls ↔ (s :: p, v) ∈ ls := by
  unfold beneath
  rw [List.mem_filterMap]
  constructor
  · rintro ⟨⟨path, w⟩, hmem, hl⟩
    cases path with
    | nil => cases hl
    | cons t path =>
      dsimp only at hl
      split at hl
      · next ht =>
        cases hl
        rwa [ht] at hmem
      · cases hl
  · intro hmem
    refine ⟨_, hmem, ?_⟩
    dsimp only
    rw [if_pos rfl]

/-- Some leaf is below a step if the path of one begins with the step. -/
theorem beneath_ne_nil {s : Step} {ls : List (Path × Value)} {p : Path} {v : Value}
    (h : (s :: p, v) ∈ ls) : beneath s ls ≠ [] := List.ne_nil_of_mem (mem_beneath.2 h)

/-- A leaf that is added below a step. -/
theorem beneath_append_self (s : Step) (ls : List (Path × Value)) (p : Path) (v : Value) :
    beneath s (ls ++ [(s :: p, v)]) = beneath s ls ++ [(p, v)] := by
  unfold beneath
  rw [List.filterMap_append]
  simp

/-- A leaf that is added below another step. -/
theorem beneath_append_of_ne {s t : Step} (h : t ≠ s) (ls : List (Path × Value)) (p : Path)
    (v : Value) : beneath s (ls ++ [(t :: p, v)]) = beneath s ls := by
  unfold beneath
  rw [List.filterMap_append]
  simp [h]

/-- The leaves below a step stay so in another order. -/
theorem beneath_perm {ls ls' : List (Path × Value)} (h : ls.Perm ls') (s : Step) :
    (beneath s ls).Perm (beneath s ls') := h.filterMap _

/-- Whether there are leaves below a step does not depend on the order. -/
theorem beneath_eq_nil_iff {ls ls' : List (Path × Value)} (h : ls.Perm ls') (s : Step) :
    beneath s ls = [] ↔ beneath s ls' = [] := by
  rw [← List.length_eq_zero_iff, (beneath_perm h s).length_eq, List.length_eq_zero_iff]

/-- The leaves of data, each at the end of its path. -/
inductive Gathered : List (Path × Value) → Value → Prop where
  | leaf {v : Value} (h : v.isContainer = false) : Gathered [([], v)] v
  | dict {ls : List (Path × Value)} {entries : Entries Value}
      (hkeys : ∀ e ∈ entries, ∃ k, e.1 = .str k) (hdistinct : entries.Distinct)
      (hsteps : ∀ l ∈ ls, ∃ k p, l.1 = .key k :: p ∧ entries.lookup (.str k) ≠ none)
      (hnonempty : ∀ k v, entries.lookup (.str k) = some v → beneath (.key k) ls ≠ [])
      (h : ∀ k v, entries.lookup (.str k) = some v → Gathered (beneath (.key k) ls) v) :
      Gathered ls (.dict entries)
  | list {ls : List (Path × Value)} {items : List Value}
      (hsteps : ∀ l ∈ ls, ∃ n p, l.1 = .index n :: p ∧ n < items.length)
      (hlast : ∀ n, items.length = n + 1 → beneath (.index n) ls ≠ [])
      (hnull : ∀ (n : Nat) v, items[n]? = some v → beneath (.index n) ls = [] → v = .null)
      (h : ∀ (n : Nat) v, items[n]? = some v → beneath (.index n) ls ≠ [] →
        Gathered (beneath (.index n) ls) v) :
      Gathered ls (.list items)

namespace Gathered

variable {ls : List (Path × Value)} {v : Value}

/-- An empty mapping holds no leaves below it. -/
theorem nil_dict : Gathered [] (.dict []) :=
  .dict (fun _ h => absurd h List.not_mem_nil) List.Pairwise.nil
    (fun _ h => absurd h List.not_mem_nil) (fun _ _ h => by cases h) (fun _ _ h => by cases h)

/-- An empty list holds no leaves below it. -/
theorem nil_list : Gathered [] (.list []) :=
  .list (fun _ h => absurd h List.not_mem_nil) (fun _ h => by cases h) (fun _ _ h => by cases h)
    (fun _ _ h => by cases h)

/-- Every path leads to its leaf. -/
theorem follow_eq (h : Gathered ls v) : ∀ {p x}, (p, x) ∈ ls → follow? p v = some x := by
  induction h with
  | leaf h =>
    intro p x hmem
    obtain ⟨rfl, rfl⟩ := Prod.mk.inj (List.mem_singleton.1 hmem)
    rfl
  | @dict ls entries hkeys hdistinct hsteps hnonempty h ih =>
    intro p x hmem
    obtain ⟨k, q, rfl, hk⟩ := hsteps _ hmem
    obtain ⟨w, hw⟩ := Option.ne_none_iff_exists'.1 hk
    have hfollow := ih k w hw (mem_beneath.2 hmem)
    rw [follow?, child?, Step.asKey, hw, Option.bind_some, hfollow]
  | @list ls items hsteps hlast hnull h ih =>
    intro p x hmem
    obtain ⟨n, q, rfl, hn⟩ := hsteps _ hmem
    have hw : items[n]? = some items[n] := List.getElem?_eq_getElem hn
    have hfollow := ih n _ hw (beneath_ne_nil hmem) (mem_beneath.2 hmem)
    rw [follow?, child?, hw, Option.bind_some, hfollow]

/-- Nothing stands along a path that begins with a step out of a scalar. -/
theorem follow?_of_scalar (hv : v.isContainer = false) (s : Step) (p : Path) :
    follow? (s :: p) v = none := by
  cases v with
  | dict => cases hv
  | list => cases hv
  | _ => rfl

/-- A place in a list is null if no path leads through it. -/
theorem eq_null (h : Gathered ls v) : ∀ {c items n x}, follow? c v = some (.list items) →
    items[n]? = some x → (∀ l ∈ ls, ¬c ++ [.index n] <+: l.1) → x = .null := by
  induction h with
  | @leaf v hv =>
    intro c items n x hc
    cases c with
    | nil =>
      obtain rfl := Option.some.inj hc
      cases hv
    | cons s c =>
      rw [follow?_of_scalar hv] at hc
      cases hc
  | @dict ls entries hkeys hdistinct hsteps hnonempty h ih =>
    intro c items n x hc hx hno
    cases c with
    | nil => cases hc
    | cons s c =>
      obtain ⟨w, hw, hc'⟩ := Option.bind_eq_some_iff.1 hc
      -- Only keys lead into a mapping.
      obtain ⟨l, hl, hkey⟩ := Entries.exists_mem_of_lookup hw
      obtain ⟨k, rfl⟩ := hkeys _ hl
      obtain rfl : s = .key k := by
        cases s with
        | key k' => rw [Value.str.inj (Value.eq_str_of_key? hkey.symm)]
        | index m => cases hkey
      refine ih k w hw hc' hx fun l hl hbegins => ?_
      exact hno _ (mem_beneath.1 hl) ((List.prefix_cons_inj _).2 hbegins)
  | @list ls items' hsteps hlast hnull h ih =>
    intro c items n x hc hx hno
    cases c with
    | nil =>
      obtain rfl := Value.list.inj (Option.some.inj hc)
      refine hnull n x hx (List.eq_nil_iff_forall_not_mem.2 fun l hl => ?_)
      exact hno _ (mem_beneath.1 hl) ⟨l.1, rfl⟩
    | cons s c =>
      obtain ⟨w, hw, hc'⟩ := Option.bind_eq_some_iff.1 hc
      cases s with
      | key k => cases hw
      | index m =>
        by_cases hbeneath : beneath (.index m) ls = []
        · -- Nothing stands along a path through a null.
          obtain rfl := hnull m w hw hbeneath
          cases c with
          | nil => cases hc'
          | cons t c => cases hc'
        · refine ih m w hw hbeneath hc' hx fun l hl hbegins => ?_
          exact hno _ (mem_beneath.1 hl) ((List.prefix_cons_inj _).2 hbegins)

/-- The paths to leaves do not jar. -/
theorem not_jars (h : Gathered ls v) : ∀ {l m}, l ∈ ls → m ∈ ls → ¬Path.Jars l.1 m.1 := by
  induction h with
  | leaf h =>
    intro l m hl hm hjars
    obtain rfl := List.mem_singleton.1 hl
    cases hjars
  | @dict ls entries hkeys hdistinct hsteps hnonempty h ih =>
    rintro ⟨p, x⟩ ⟨q, y⟩ hl hm hjars
    obtain ⟨k, p', rfl, hk⟩ := hsteps _ hl
    obtain ⟨k', q', rfl, -⟩ := hsteps _ hm
    obtain ⟨w, hw⟩ := Option.ne_none_iff_exists'.1 hk
    cases hjars with
    | under s hjars =>
      exact ih k w hw (mem_beneath.2 hl) (mem_beneath.2 hm) hjars
  | @list ls items hsteps hlast hnull h ih =>
    rintro ⟨p, x⟩ ⟨q, y⟩ hl hm hjars
    obtain ⟨n, p', rfl, hn⟩ := hsteps _ hl
    obtain ⟨n', q', rfl, -⟩ := hsteps _ hm
    have hw : items[n]? = some items[n] := List.getElem?_eq_getElem hn
    cases hjars with
    | under s hjars =>
      exact ih n _ hw (beneath_ne_nil hl) (mem_beneath.2 hl)
        (mem_beneath.2 hm) hjars

/-- A mapping has the keys that some path leads to. -/
theorem mem_keys_iff {entries : Entries Value} (h : Gathered ls (.dict entries)) (k : String) :
    Value.str k ∈ entries.keys ↔ beneath (.key k) ls ≠ [] := by
  cases h with
  | leaf h => cases h
  | dict hkeys hdistinct hsteps hnonempty h =>
    constructor
    · intro hk
      obtain ⟨w, hw⟩ := Entries.exists_lookup_of_mem_keys hk
      exact hnonempty k w hw
    · intro hne
      obtain ⟨⟨p, x⟩, hmem⟩ := List.exists_mem_of_ne_nil _ hne
      obtain ⟨k', q, hpath, hk⟩ := hsteps _ (mem_beneath.1 hmem)
      obtain rfl := Step.key.inj (List.cons.inj hpath).1
      obtain ⟨w, hw⟩ := Option.ne_none_iff_exists'.1 hk
      obtain ⟨l, hl, hkey⟩ := Entries.exists_mem_of_lookup hw
      rw [← Value.eq_str_of_key? hkey]
      exact List.mem_map_of_mem hl

/-- A list goes up to the greatest index that some path leads to. -/
theorem lt_length_iff {items : List Value} (h : Gathered ls (.list items)) (n : Nat) :
    n < items.length ↔ ∃ m, n ≤ m ∧ beneath (.index m) ls ≠ [] := by
  cases h with
  | leaf h => cases h
  | list hsteps hlast hnull h =>
    constructor
    · intro hn
      obtain ⟨m, hm⟩ := Nat.exists_eq_succ_of_ne_zero (Nat.ne_zero_of_lt hn)
      exact ⟨m, by omega, hlast m hm⟩
    · rintro ⟨m, hnm, hne⟩
      obtain ⟨⟨p, x⟩, hmem⟩ := List.exists_mem_of_ne_nil _ hne
      obtain ⟨m', q, hpath, hm⟩ := hsteps _ (mem_beneath.1 hmem)
      obtain rfl := Step.index.inj (List.cons.inj hpath).1
      omega

/-- Mappings that have been gathered from the same leaves have the same keys. -/
theorem keys_perm {ls' : List (Path × Value)} {entries entries' : Entries Value}
    (h : Gathered ls (.dict entries)) (h' : Gathered ls' (.dict entries')) (hperm : ls.Perm ls') :
    entries.keys.Perm entries'.keys := by
  have hmem : ∀ k : String, Value.str k ∈ entries.keys ↔ Value.str k ∈ entries'.keys := by
    intro k
    rw [h.mem_keys_iff, h'.mem_keys_iff, ne_eq, ne_eq, beneath_eq_nil_iff hperm]
  cases h with
  | leaf h => cases h
  | dict hkeys hdistinct _ _ _ =>
    cases h' with
    | leaf h => cases h
    | dict hkeys' hdistinct' _ _ _ =>
      refine (List.perm_ext_iff_of_nodup hdistinct.nodup_keys hdistinct'.nodup_keys).2 fun k => ?_
      constructor
      · intro hk
        obtain ⟨e, he, rfl⟩ := List.mem_map.1 hk
        obtain ⟨name, hname⟩ := hkeys e he
        rw [hname] at hk ⊢
        exact (hmem name).1 hk
      · intro hk
        obtain ⟨e, he, rfl⟩ := List.mem_map.1 hk
        obtain ⟨name, hname⟩ := hkeys' e he
        rw [hname] at hk ⊢
        exact (hmem name).2 hk

/-- Lists that have been gathered from the same leaves have the same length. -/
theorem length_eq {ls' : List (Path × Value)} {items items' : List Value}
    (h : Gathered ls (.list items)) (h' : Gathered ls' (.list items')) (hperm : ls.Perm ls') :
    items.length = items'.length := by
  have hlt : ∀ n, n < items.length ↔ n < items'.length := by
    intro n
    rw [h.lt_length_iff, h'.lt_length_iff]
    simp only [ne_eq, beneath_eq_nil_iff hperm]
  have hle : ¬items.length < items'.length := fun h => Nat.lt_irrefl _ ((hlt items.length).2 h)
  have hge : ¬items'.length < items.length := fun h => Nat.lt_irrefl _ ((hlt items'.length).1 h)
  omega

/-- Data with a leaf below a key are a mapping. -/
theorem eq_dict (h : Gathered ls v) {k : String} {p : Path} {x : Value}
    (hmem : (.key k :: p, x) ∈ ls) : ∃ entries, v = .dict entries := by
  cases h with
  | leaf h => cases List.mem_singleton.1 hmem
  | dict hkeys hdistinct hsteps hnonempty h => exact ⟨_, rfl⟩
  | list hsteps hlast hnull h =>
    obtain ⟨n, q, hpath, -⟩ := hsteps _ hmem
    cases hpath

/-- Data with a leaf below an index are a list. -/
theorem eq_list (h : Gathered ls v) {n : Nat} {p : Path} {x : Value}
    (hmem : (.index n :: p, x) ∈ ls) : ∃ items, v = .list items := by
  cases h with
  | leaf h => cases List.mem_singleton.1 hmem
  | dict hkeys hdistinct hsteps hnonempty h =>
    obtain ⟨k, q, hpath, -⟩ := hsteps _ hmem
    cases hpath
  | list hsteps hlast hnull h => exact ⟨_, rfl⟩

/-- What stands at a key has been gathered from the leaves below it. -/
theorem of_lookup {entries : Entries Value} (h : Gathered ls (.dict entries)) {k : String}
    {w : Value} (hw : entries.lookup (.str k) = some w) : Gathered (beneath (.key k) ls) w := by
  cases h with
  | leaf h => cases h
  | dict hkeys hdistinct hsteps hnonempty h => exact h k w hw

/-- What stands at an index is null or has been gathered from the leaves below it. -/
theorem of_getElem? {items : List Value} (h : Gathered ls (.list items)) {n : Nat} {w : Value}
    (hw : items[n]? = some w) :
    (beneath (.index n) ls = [] → w = .null) ∧
      (beneath (.index n) ls ≠ [] → Gathered (beneath (.index n) ls) w) := by
  cases h with
  | leaf h => cases h
  | list hsteps hlast hnull h => exact ⟨hnull n w hw, h n w hw⟩

/-- Data that have been gathered from the same leaves are the same up to the order of keys. -/
theorem rearranged (h : Gathered ls v) : ∀ {ls' v'}, ls.Perm ls' → ls ≠ [] → Gathered ls' v' →
    Rearranged v v' := by
  induction h with
  | @leaf v hv =>
    intro ls' v' hperm _ h'
    obtain rfl := Option.some.inj (h'.follow_eq (hperm.mem_iff.1 List.mem_cons_self))
    exact .refl v'
  | @dict ls entries hkeys hdistinct hsteps hnonempty h ih =>
    intro ls' v' hperm hne h'
    have hgathered : Gathered ls (.dict entries) := .dict hkeys hdistinct hsteps hnonempty h
    -- The other data are a mapping too, since the path to some leaf begins with a key.
    obtain ⟨⟨_, x⟩, hl⟩ := List.exists_mem_of_ne_nil _ hne
    obtain ⟨k, p, rfl, -⟩ := hsteps _ hl
    obtain ⟨entries', rfl⟩ := h'.eq_dict (hperm.mem_iff.1 hl)
    refine .dict (hgathered.keys_perm h' hperm) fun k w w' hw hw' => ?_
    obtain ⟨l, hl, hkey⟩ := Entries.exists_mem_of_lookup hw
    obtain ⟨name, rfl⟩ := hkeys _ hl
    rw [← Entries.lookup_congr hkey] at hw hw'
    exact ih name w hw (beneath_perm hperm _) (hnonempty name w hw) (h'.of_lookup hw')
  | @list ls items hsteps hlast hnull h ih =>
    intro ls' v' hperm hne h'
    have hgathered : Gathered ls (.list items) := .list hsteps hlast hnull h
    -- The other data are a list too, since the path to some leaf begins with an index.
    obtain ⟨⟨_, x⟩, hl⟩ := List.exists_mem_of_ne_nil _ hne
    obtain ⟨n, p, rfl, -⟩ := hsteps _ hl
    obtain ⟨items', rfl⟩ := h'.eq_list (hperm.mem_iff.1 hl)
    refine .list (hgathered.length_eq h' hperm) fun n w w' hw hw' => ?_
    obtain ⟨hnull', hother⟩ := h'.of_getElem? hw'
    have hnil := beneath_eq_nil_iff hperm (.index n)
    by_cases hbeneath : beneath (.index n) ls = []
    · rw [hnull n w hw hbeneath, hnull' (hnil.1 hbeneath)]
      exact .refl _
    · exact ih n w hw hbeneath (beneath_perm hperm _) hbeneath
        (hother fun hnil' => hbeneath (hnil.2 hnil'))

section Set

variable {p : Path} {x child : Value}

/-- A mapping with one more leaf below a key. -/
theorem insert {entries : Entries Value} {k : String} (h : Gathered ls (.dict entries))
    (hchild : Gathered (beneath (.key k) ls ++ [(p, x)]) child) :
    Gathered (ls ++ [(.key k :: p, x)]) (.dict (entries.insert (.str k) child)) := by
  have hlookup : ∀ k', Entries.lookup (entries.insert (.str k) child) (.str k') =
      if k = k' then some child else entries.lookup (.str k') := by
    intro k'
    rw [Entries.lookup_insert]
    by_cases hkk : k = k'
    · rw [if_pos hkk, if_pos (by rw [hkk])]
    · rw [if_neg hkk, if_neg fun hkey => hkk (Value.str.inj (Value.eq_str_of_key? hkey))]
  have hother : ∀ {k'}, k ≠ k' →
      beneath (.key k') (ls ++ [(.key k :: p, x)]) = beneath (.key k') ls := fun hkk =>
    beneath_append_of_ne (fun heq => hkk (Step.key.inj heq)) ls p x
  cases h with
  | leaf h => cases h
  | dict hkeys hdistinct hsteps hnonempty h =>
    refine .dict (fun e he => ?_) (hdistinct.insert _ _) (fun l hl => ?_) (fun k' w hw => ?_)
      fun k' w hw => ?_
    · rcases Entries.mem_insert he with he | ⟨hkey, -⟩
      · exact hkeys e he
      · exact ⟨k, Value.eq_str_of_key? hkey⟩
    · rcases List.mem_append.1 hl with hl | hl
      · obtain ⟨k', q, hpath, hk'⟩ := hsteps l hl
        refine ⟨k', q, hpath, ?_⟩
        rw [hlookup]
        split
        · exact Option.some_ne_none _
        · exact hk'
      · obtain rfl := List.mem_singleton.1 hl
        refine ⟨k, p, rfl, ?_⟩
        rw [hlookup, if_pos rfl]
        exact Option.some_ne_none _
    · rw [hlookup] at hw
      by_cases hkk : k = k'
      · rw [← hkk, beneath_append_self]
        simp
      · rw [if_neg hkk] at hw
        rw [hother hkk]
        exact hnonempty k' w hw
    · rw [hlookup] at hw
      by_cases hkk : k = k'
      · rw [if_pos hkk] at hw
        obtain rfl := Option.some.inj hw
        rw [← hkk, beneath_append_self]
        exact hchild
      · rw [if_neg hkk] at hw
        rw [hother hkk]
        exact h k' w hw

/-- A list with one more leaf below an index. -/
theorem setIndex {items : List Value} {n : Nat} (h : Gathered ls (.list items))
    (hchild : Gathered (beneath (.index n) ls ++ [(p, x)]) child) :
    Gathered (ls ++ [(.index n :: p, x)]) (.list (Step.setIndex .null items n child)) := by
  have hother : ∀ {m}, n ≠ m →
      beneath (.index m) (ls ++ [(.index n :: p, x)]) = beneath (.index m) ls := fun hnm =>
    beneath_append_of_ne (fun heq => hnm (Step.index.inj heq)) ls p x
  have hself : beneath (.index n) (ls ++ [(.index n :: p, x)]) ≠ [] := by
    rw [beneath_append_self]
    simp
  cases h with
  | leaf h => cases h
  | list hsteps hlast hnull h =>
    refine .list (fun l hl => ?_) (fun m hm => ?_) (fun m w hw hnil => ?_) fun m w hw hne => ?_
    · rw [Step.length_setIndex]
      rcases List.mem_append.1 hl with hl | hl
      · obtain ⟨m, q, hpath, hm⟩ := hsteps l hl
        exact ⟨m, q, hpath, by omega⟩
      · obtain rfl := List.mem_singleton.1 hl
        exact ⟨n, p, rfl, by omega⟩
    · rw [Step.length_setIndex] at hm
      by_cases hnm : n = m
      · exact hnm ▸ hself
      · rw [hother hnm]
        exact hlast m (by omega)
    · have hnm : n ≠ m := by
        rintro rfl
        exact hself hnil
      rw [hother hnm] at hnil
      rw [Step.getElem?_setIndex, if_neg hnm] at hw
      split at hw
      · exact hnull m w hw hnil
      · split at hw
        · exact (Option.some.inj hw).symm
        · cases hw
    · rw [Step.getElem?_setIndex] at hw
      by_cases hnm : n = m
      · rw [if_pos hnm] at hw
        obtain rfl := Option.some.inj hw
        rw [← hnm, beneath_append_self]
        exact hchild
      · rw [hother hnm] at hne ⊢
        rw [if_neg hnm] at hw
        split at hw
        · exact h m w hw hne
        · next hlt =>
          -- No path leads to a place behind the end of the list.
          obtain ⟨⟨q, y⟩, hmem⟩ := List.exists_mem_of_ne_nil _ hne
          obtain ⟨m', _, hpath, hm'⟩ := hsteps _ (mem_beneath.1 hmem)
          obtain rfl := Step.index.inj (List.cons.inj hpath).1
          exact absurd hm' hlt

/-- Data with one more leaf: what a step leads to makes way for what is gathered from the leaves
below the step, the new one among them. -/
theorem set {s : Step} {node node' : Value} (h : Gathered ls node)
    (hnode : node.isContainer = true) (hchild : Gathered (beneath s ls ++ [(p, x)]) child)
    (hset : s.set node child = .ok node') : Gathered (ls ++ [(s :: p, x)]) node' := by
  cases node with
  | dict entries =>
    cases s with
    | index n => cases hset
    | key k =>
      obtain rfl := Except.ok.inj hset
      exact h.insert hchild
  | list items =>
    cases s with
    | key k => cases hset
    | index n =>
      obtain ⟨u, -, rfl⟩ := map_eq_ok_iff.1 hset
      exact h.setIndex hchild
  | _ => cases hnode

end Set

end Gathered

end Value

end ParamCheck
