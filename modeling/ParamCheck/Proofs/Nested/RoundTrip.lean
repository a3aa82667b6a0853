import ParamCheck.Nested.Options
import ParamCheck.Proofs.Nested.Growth

/-!
# Flattening and building are inverse

Nested data (`Value.Nested`) come back from their leaves (`Nested.regrows`): the leaves of a
mapping or a list are put in behind what is there already, one entry or item after the other
(`builds_entryLeaves`, `builds_itemLeaves`). Their paths part pairwise
(`apart_entryLeaves`), so that with separate marks no two leaves share a flat key.
`unflatten_flatten` puts the two together.
-/

namespace ParamCheck

/-- Two paths part at some step: they go on to different keys, or to different indexes. -/
inductive Path.Apart : Path → Path → Prop where
  | keys {m n : String} (h : m ≠ n) (p q : Path) : Apart (.key m :: p) (.key n :: q)
  | indexes {i j : Nat} (h : i ≠ j) (p q : Path) : Apart (.index i :: p) (.index j :: q)
  | under (s : Step) {p q : Path} (h : Apart p q) : Apart (s :: p) (s :: q)

/-- Paths that part are different. -/
theorem Path.Apart.ne {p q : Path} (h : Apart p q) : p ≠ q := by
  induction h with
  | keys h => exact fun heq => h (Step.key.inj (List.cons.inj heq).1)
  | indexes h => exact fun heq => h (Step.index.inj (List.cons.inj heq).1)
  | under s h ih => exact fun heq => ih (List.cons.inj heq).2

namespace Value

/-- Mappings with texts as keys, lists and scalars, to any depth. A mapping has each key once, and a
list has no more items than a list can have. -/
inductive Nested : Value → Prop where
  | scalar {v : Value} (h : v.isContainer = false) : Nested v
  | list {items : List Value} (hlength : items.length ≤ Step.maxItems)
      (h : ∀ v ∈ items, Nested v) : Nested (.list items)
  | dict {entries : List (Value × Value)} (hkeys : ∀ e ∈ entries, ∃ name, e.1 = .str name)
      (hdistinct : Entries.Distinct entries) (h : ∀ e ∈ entries, Nested e.2) :
      Nested (.dict entries)

/-- The keys of a mapping can be written if each of them can and so can those below its entries. -/
theorem keysWritable_dict_iff {entries : Entries Value} :
    (dict entries).keysWritable = true ↔ ∀ e ∈ entries, e.1.writable = true ∧ e.2.keysWritable = true := by
  rw [keysWritable]
  induction entries with
  | nil => simp [keysWritable.entryKeysWritable]
  | cons e rest ih =>
    rw [keysWritable.entryKeysWritable, Bool.and_eq_true, Bool.and_eq_true, ih, List.forall_mem_cons]

/-- The keys below a list can be written if those below each of its items can. -/
theorem keysWritable_list_iff {items : List Value} :
    (list items).keysWritable = true ↔ ∀ v ∈ items, v.keysWritable = true := by
  rw [keysWritable]
  induction items with
  | nil => simp [keysWritable.itemKeysWritable]
  | cons v rest ih =>
    rw [keysWritable.itemKeysWritable, Bool.and_eq_true, ih, List.forall_mem_cons]

/-- A scalar has no keys. -/
theorem keysWritable_of_scalar {v : Value} (h : v.isContainer = false) : v.keysWritable = true := by
  cases v <;> first | rfl | cases h

/-- The keys of nested data are texts, which can be written. -/
theorem Nested.keysWritable {v : Value} (hv : v.Nested) : v.keysWritable = true := by
  induction hv with
  | scalar h => exact keysWritable_of_scalar h
  | list hlength h ih => exact keysWritable_list_iff.2 ih
  | dict hkeys hdistinct h ih =>
    refine keysWritable_dict_iff.2 fun e he => ⟨?_, ih e he⟩
    obtain ⟨name, hname⟩ := hkeys e he
    rw [hname]
    rfl

/-! ## The leaves of containers -/

/-- The leaves of a mapping are those of its first value and those of the other entries. -/
theorem entryLeaves_cons (name : String) (v : Value) (rest : List (Value × Value)) :
    leaves.entryLeaves ((.str name, v) :: rest) =
      (leaves v).map (under (.key name)) ++ leaves.entryLeaves rest := rfl

/-- The leaves of a list are those of its first item and those of the other items. -/
theorem itemLeaves_cons (n : Nat) (v : Value) (rest : List Value) :
    leaves.itemLeaves n (v :: rest) =
      (leaves v).map (under (.index n)) ++ leaves.itemLeaves (n + 1) rest := rfl

/-- A scalar is its only leaf. -/
theorem leaves_of_scalar {v : Value} (h : v.isContainer = false) : leaves v = [([], v)] := by
  cases v <;> first | rfl | cases h

/-- The path to a leaf of a mapping begins with a key of the mapping. -/
theorem exists_of_mem_entryLeaves {entries : List (Value × Value)} {l : Path × Value}
    (h : l ∈ leaves.entryLeaves entries) :
    ∃ e ∈ entries, ∃ path, l.1 = .key e.1.text :: path := by
  induction entries with
  | nil => cases h
  | cons e rest ih =>
    obtain ⟨k, v⟩ := e
    rw [leaves.entryLeaves, List.mem_append] at h
    rcases h with h | h
    · obtain ⟨l', -, rfl⟩ := List.mem_map.1 h
      exact ⟨(k, v), List.mem_cons_self, l'.1, rfl⟩
    · obtain ⟨e, he, path, hpath⟩ := ih h
      exact ⟨e, List.mem_cons_of_mem _ he, path, hpath⟩

/-- The path to a leaf of a list begins with an index of the list. -/
theorem exists_of_mem_itemLeaves {items : List Value} {n : Nat} {l : Path × Value}
    (h : l ∈ leaves.itemLeaves n items) : ∃ i, n ≤ i ∧ ∃ path, l.1 = .index i :: path := by
  induction items generalizing n with
  | nil => cases h
  | cons v rest ih =>
    rw [itemLeaves_cons, List.mem_append] at h
    rcases h with h | h
    · obtain ⟨l', -, rfl⟩ := List.mem_map.1 h
      exact ⟨n, Nat.le_refl n, l'.1, rfl⟩
    · obtain ⟨i, hi, path, hpath⟩ := ih h
      exact ⟨i, by omega, path, hpath⟩

/-! ## Coming back from the leaves -/

/-- The leaves of new entries build them behind the entries of a mapping. -/
theorem builds_entryLeaves {entries : List (Value × Value)}
    (hkeys : ∀ e ∈ entries, ∃ name, e.1 = .str name) (hdistinct : Entries.Distinct entries)
    (h : ∀ e ∈ entries, Regrows e.2) :
    ∀ done : Entries Value, (∀ e ∈ entries, done.lookup e.1 = none) →
      Builds (leaves.entryLeaves entries) (.dict done) (.dict (done ++ entries)) := by
  induction entries with
  | nil =>
    intro done _
    rw [List.append_nil]
    rfl
  | cons e rest ih =>
    intro done hdone
    obtain ⟨k, v⟩ := e
    obtain ⟨name, rfl⟩ : ∃ name, k = .str name := hkeys _ List.mem_cons_self
    obtain ⟨hnew, hrest⟩ := List.pairwise_cons.1 hdistinct
    -- The first entry goes to the end of the mapping, and the others follow it.
    have hfirst := Builds.child (Step.slot_key (hdone _ List.mem_cons_self))
      (h _ List.mem_cons_self)
    have hdone' : ∀ f ∈ rest, Entries.lookup (done ++ [(.str name, v)]) f.1 = none := by
      intro f hf
      rw [Entries.lookup_append, hdone f (List.mem_cons_of_mem _ hf), Option.none_or,
        Entries.lookup_eq_none_iff]
      simpa using hnew f hf
    have hothers := ih (fun e he => hkeys e (List.mem_cons_of_mem _ he)) hrest
      (fun e he => h e (List.mem_cons_of_mem _ he)) _ hdone'
    rw [List.append_assoc, List.singleton_append] at hothers
    rw [entryLeaves_cons]
    exact hfirst.append hothers

/-- The leaves of further items build them behind the items of a list. -/
theorem builds_itemLeaves {items : List Value} (h : ∀ v ∈ items, Regrows v) :
    ∀ done : List Value, done.length + items.length ≤ Step.maxItems →
      Builds (leaves.itemLeaves done.length items) (.list done) (.list (done ++ items)) := by
  induction items with
  | nil =>
    intro done _
    rw [List.append_nil]
    rfl
  | cons v rest ih =>
    intro done hlength
    rw [List.length_cons] at hlength
    have hroom : done.length < Step.maxItems := by omega
    have hfirst := Builds.child (Step.slot_index hroom) (h _ List.mem_cons_self)
    have hothers := ih (fun w hw => h w (List.mem_cons_of_mem _ hw)) (done ++ [v])
      (by rw [List.length_append, List.length_singleton]; omega)
    rw [List.length_append, List.length_singleton, List.append_assoc, List.singleton_append]
      at hothers
    rw [itemLeaves_cons]
    exact hfirst.append hothers

/-- A container comes back from its leaves if it is built from them, those of its first child coming
first. -/
theorem Regrows.of_child {s : Step} {child v : Value} {rest : List (Path × Value)}
    (hchild : child.Regrows) (hleaves : leaves v = (leaves child).map (under s) ++ rest)
    (hrest : ∀ l ∈ rest, l.1 ≠ []) (hbuilds : Builds (leaves v) (containerFor s) v) :
    v.Regrows := by
  right
  obtain ⟨l, ls, hl⟩ := List.exists_cons_of_ne_nil hchild.leaves_ne_nil
  refine ⟨s, l.1, l.2, ls.map (under s) ++ rest, ?_, fun l' hl' => ?_, hbuilds⟩
  · rw [hleaves, hl]
    rfl
  · rcases List.mem_append.1 hl' with hl' | hl'
    · obtain ⟨l'', -, rfl⟩ := List.mem_map.1 hl'
      exact List.cons_ne_nil _ _
    · exact hrest l' hl'

/-- Nested data come back from their leaves. -/
theorem Nested.regrows {v : Value} (hv : v.Nested) : v.Regrows := by
  induction hv with
  | scalar h => exact Or.inl (leaves_of_scalar h)
  | @list items hlength h ih =>
    cases items with
    | nil => exact Or.inl rfl
    | cons v rest =>
      -- The first step of a list is the index of its first item.
      refine (ih v List.mem_cons_self).of_child (itemLeaves_cons 0 v rest) (fun l hl => ?_) ?_
      · obtain ⟨i, -, path, hpath⟩ := exists_of_mem_itemLeaves hl
        rw [hpath]
        exact List.cons_ne_nil _ _
      · exact builds_itemLeaves ih [] (by rw [List.length_nil]; omega)
  | @dict entries hkeys hdistinct h ih =>
    cases entries with
    | nil => exact Or.inl rfl
    | cons e rest =>
      obtain ⟨k, v⟩ := e
      obtain ⟨name, rfl⟩ : ∃ name, k = .str name := hkeys _ List.mem_cons_self
      refine (ih _ List.mem_cons_self).of_child (entryLeaves_cons name v rest) (fun l hl => ?_) ?_
      · obtain ⟨e, -, path, hpath⟩ := exists_of_mem_entryLeaves hl
        rw [hpath]
        exact List.cons_ne_nil _ _
      · exact builds_entryLeaves hkeys hdistinct ih [] fun _ _ => rfl

/-! ## Different leaves, different paths -/

/-- Leaves whose paths are pairwise apart stay so below one step, and with leaves whose paths begin
with other steps of the same kind. -/
theorem apart_under_append {ls ms : List (Path × Value)} {s : Step}
    (hls : ls.Pairwise fun l m => Path.Apart l.1 m.1) (hms : ms.Pairwise fun l m => Path.Apart l.1 m.1)
    (hother : ∀ p, ∀ m ∈ ms, Path.Apart (s :: p) m.1) :
    (ls.map (under s) ++ ms).Pairwise fun l m => Path.Apart l.1 m.1 := by
  refine List.pairwise_append.2 ⟨?_, hms, fun l hl m hm => ?_⟩
  · exact List.pairwise_map.2 (hls.imp fun h => .under s h)
  · obtain ⟨l', -, rfl⟩ := List.mem_map.1 hl
    exact hother l'.1 m hm

/-- The leaves of a mapping have paths that are apart if those of every value do. -/
theorem apart_entryLeaves {entries : List (Value × Value)}
    (hkeys : ∀ e ∈ entries, ∃ name, e.1 = .str name) (hdistinct : Entries.Distinct entries)
    (h : ∀ e ∈ entries, (leaves e.2).Pairwise fun l m => Path.Apart l.1 m.1) :
    (leaves.entryLeaves entries).Pairwise fun l m => Path.Apart l.1 m.1 := by
  induction entries with
  | nil => exact List.Pairwise.nil
  | cons e rest ih =>
    obtain ⟨k, v⟩ := e
    obtain ⟨name, rfl⟩ : ∃ name, k = .str name := hkeys _ List.mem_cons_self
    obtain ⟨hnew, hrest⟩ := List.pairwise_cons.1 hdistinct
    have hothers := ih (fun e he => hkeys e (List.mem_cons_of_mem _ he)) hrest
      (fun e he => h e (List.mem_cons_of_mem _ he))
    rw [entryLeaves_cons]
    refine apart_under_append (h _ List.mem_cons_self) hothers fun p m hm => ?_
    -- The other path begins with a later key, which is another one.
    obtain ⟨f, hf, path, hpath⟩ := exists_of_mem_entryLeaves hm
    obtain ⟨name', hname'⟩ := hkeys f (List.mem_cons_of_mem _ hf)
    rw [hpath, hname']
    refine .keys (fun heq => ?_) p path
    have hkey := hnew f hf
    rw [hname'] at hkey
    exact hkey (congrArg (fun n => (Value.str n).key?) heq)

/-- The leaves of a list have paths that are apart if those of every item do. -/
theorem apart_itemLeaves {items : List Value}
    (h : ∀ v ∈ items, (leaves v).Pairwise fun l m => Path.Apart l.1 m.1) :
    ∀ n, (leaves.itemLeaves n items).Pairwise fun l m => Path.Apart l.1 m.1 := by
  induction items with
  | nil => exact fun n => List.Pairwise.nil
  | cons v rest ih =>
    intro n
    have hothers := ih (fun w hw => h w (List.mem_cons_of_mem _ hw)) (n + 1)
    rw [itemLeaves_cons]
    refine apart_under_append (h _ List.mem_cons_self) hothers fun p m hm => ?_
    -- The other path begins with a later index, which is greater.
    obtain ⟨i, hi, path, hpath⟩ := exists_of_mem_itemLeaves hm
    rw [hpath]
    exact .indexes (by omega) p path

/-- Different leaves of nested data have paths that are apart. -/
theorem Nested.apart_leaves {v : Value} (hv : v.Nested) :
    (leaves v).Pairwise fun l m => Path.Apart l.1 m.1 := by
  induction hv with
  | scalar h =>
    rw [leaves_of_scalar h]
    exact List.pairwise_singleton _ _
  | @list items hlength h ih =>
    cases items with
    | nil => exact List.pairwise_singleton _ _
    | cons v rest => exact apart_itemLeaves ih 0
  | @dict entries hkeys hdistinct h ih =>
    cases entries with
    | nil => exact List.pairwise_singleton _ _
    | cons e rest => exact apart_entryLeaves hkeys hdistinct ih

/-- What holds of paths that begin with keys and part holds of the paths to different leaves of a
mapping. -/
theorem Nested.pairwise_entryLeaves {entries : Entries Value} (hx : Nested (.dict entries))
    {R : Path → Path → Prop}
    (h : ∀ {m n p q}, Path.Apart (.key m :: p) (.key n :: q) → R (.key m :: p) (.key n :: q)) :
    (leaves.entryLeaves entries).Pairwise fun l m => R l.1 m.1 := by
  cases hx with
  | scalar h => cases h
  | dict hkeys hdistinct hvalues =>
    have hapart := apart_entryLeaves hkeys hdistinct fun e he => (hvalues e he).apart_leaves
    refine hapart.imp_of_mem fun {l m} hl hm hlm => ?_
    obtain ⟨e, -, path, hpath⟩ := exists_of_mem_entryLeaves hl
    obtain ⟨f, -, path', hpath'⟩ := exists_of_mem_entryLeaves hm
    rw [hpath, hpath'] at hlm ⊢
    exact h hlm

end Value

/-! ## Flat keys of leaves -/

/-- A leaf under its flat key. -/
def Delimiters.flatEntry (d : Delimiters) (l : Path × Value) : Value × Value :=
  (.str (String.ofList (d.spell l.1)), l.2)

/-- Leaves that are spelled differently keep their order in the flat form, each under a key of its
own. -/
theorem Delimiters.flatten_of_pairwise {d : Delimiters} {entries : Entries Value}
    (h : (Value.leaves.entryLeaves entries).Pairwise fun l m => d.spell l.1 ≠ d.spell m.1) :
    d.flatten entries = (Value.leaves.entryLeaves entries).map d.flatEntry := by
  apply Entries.ofPairs_of_distinct
  unfold Entries.Distinct
  rw [List.pairwise_map]
  -- The keys are different, so that none is set twice.
  refine h.imp fun hne hkey => hne ?_
  exact String.ofList_injective (Key.str.inj (Option.some.inj hkey))

/-- With separate marks the leaves of nested data are spelled differently. -/
theorem Delimiters.flatten_of_nested {d : Delimiters} (hd : d.Separate) {entries : Entries Value}
    (hx : Value.Nested (.dict entries)) :
    d.flatten entries = (Value.leaves.entryLeaves entries).map d.flatEntry :=
  flatten_of_pairwise <| hx.pairwise_entryLeaves (R := fun p q => d.spell p ≠ d.spell q)
    fun hapart hspell => hapart.ne (hd.spell_injective hspell)

namespace DelimiterOptions

/-- With delimiters that are texts a mapping whose keys can be written is flattened by these texts. -/
theorem flatten_dict {o : DelimiterOptions} {d : Delimiters} (ho : o.delimiters? = some d)
    {entries : Entries Value} (hkeys : (Value.dict entries).keysWritable = true) :
    o.flatten (.dict entries) = .ok (d.flatten entries) := by
  rw [flatten, hkeys, ho]
  rfl

/-- Options whose marks are texts. -/
def ofTexts (hash array escape : String) : DelimiterOptions :=
  ⟨.str hash, .str array, .str escape⟩

variable {hash array escape : String}

/-- With marks that are texts a key that is a text is split by these texts. -/
theorem split_ofTexts (key : List Char) :
    (ofTexts hash array escape).split (.str (String.ofList key)) =
      .ok (Delimiters.split ⟨hash.toList, array.toList, escape.toList⟩ key) := by
  show Except.ok (Delimiters.split _ (String.ofList key).toList) = _
  rw [String.toList_ofList]

variable (hd : Delimiters.Separate ⟨hash.toList, array.toList, escape.toList⟩)

include hd

/-- Building from the flat entries of leaves is putting the leaves in. -/
theorem buildOn_flatEntry {ls : List (Path × Value)}
    (hls : ∀ l ∈ ls, ∃ name path, l.1 = .key name :: path) :
    ∀ root result, Value.Builds ls root result →
      (ofTexts hash array escape).buildOn root
        (ls.map (Delimiters.flatEntry ⟨hash.toList, array.toList, escape.toList⟩)) =
          .ok result := by
  induction ls with
  | nil =>
    intro root result h
    obtain rfl := h
    rfl
  | cons l ls ih =>
    intro root result h
    obtain ⟨path, leaf⟩ := l
    -- The key of the first leaf is read as its path, and there it is put.
    obtain ⟨next, hput, hrest⟩ := h
    obtain ⟨name, path', rfl⟩ : ∃ name path', path = .key name :: path' := hls _ List.mem_cons_self
    have hothers := ih (fun l hl => hls l (List.mem_cons_of_mem _ hl)) next result hrest
    rw [List.map_cons, Delimiters.flatEntry, buildOn, split_ofTexts, hd.split_spell name path']
    simp only [bind, Except.bind]
    rw [hput]
    exact hothers

/-- Nested data with separate marks are built again from their flat form: neither flattening nor
building fails, and the result is the same, with its keys in the same order. -/
theorem unflatten_flatten {entries : Entries Value} (hx : Value.Nested (.dict entries)) :
    ∃ flat, (ofTexts hash array escape).flatten (.dict entries) = .ok flat ∧
      (ofTexts hash array escape).unflatten (.dict flat) = .ok (.dict entries) := by
  refine ⟨_, flatten_dict rfl hx.keysWritable, ?_⟩
  rw [Delimiters.flatten_of_nested hd hx]
  cases hx with
  | scalar h => cases h
  | dict hkeys hdistinct h =>
    apply buildOn_flatEntry hd
    · intro l hl
      obtain ⟨e, -, path, hpath⟩ := Value.exists_of_mem_entryLeaves hl
      exact ⟨_, _, hpath⟩
    · exact Value.builds_entryLeaves hkeys hdistinct (fun e he => (h e he).regrows) []
        fun _ _ => rfl

omit hd in
/-- Keys made of marks, an empty key, empty containers, and a null before an item. -/
theorem unflatten_flatten_marks :
    Delimiters.Separate ⟨"->".toList, "[]".toList, "~/".toList⟩ ∧
      Value.Nested (.dict [(.str "a->", .list [.null, .dict [(.str "~/[]", .dict [])]]),
        (.str "", .list [])]) ∧
      ∃ flat,
        (ofTexts "->" "[]" "~/").flatten (.dict [(.str "a->", .list [.null,
          .dict [(.str "~/[]", .dict [])]]), (.str "", .list [])]) = .ok flat ∧
        (ofTexts "->" "[]" "~/").unflatten (.dict flat) = .ok (.dict [(.str "a->", .list [.null,
          .dict [(.str "~/[]", .dict [])]]), (.str "", .list [])]) := by
  have hd : Delimiters.Separate ⟨"->".toList, "[]".toList, "~/".toList⟩ := by decide
  have hempty : Value.Nested (.dict []) := .dict (by simp) (by decide) (by simp)
  have hinner : Value.Nested (.dict [(.str "~/[]", .dict [])]) :=
    .dict (by simp) (by decide) (by simpa using hempty)
  have hlist : Value.Nested (.list [.null, .dict [(.str "~/[]", .dict [])]]) :=
    .list (by decide) (by simpa using ⟨.scalar rfl, hinner⟩)
  have hnil : Value.Nested (.list []) := .list (by decide) (by simp)
  have hx : Value.Nested (.dict [(.str "a->", .list [.null, .dict [(.str "~/[]", .dict [])]]),
      (.str "", .list [])]) :=
    .dict (by simp) (by decide) (by simpa using ⟨hlist, hnil⟩)
  exact ⟨hd, hx, unflatten_flatten hd hx⟩

end DelimiterOptions

end ParamCheck
