import ParamCheck.Proofs.Nested.RoundTrip

/-!
# Data that are flat already

Flattening leaves a mapping exactly when each entry is the flat form of itself
(`Delimiters.flatten_eq_self_iff`): its value is a leaf, and its key is a text in which no mark occurs
(`Delimiters.Flat`), since a mark in a key is escaped (`Delimiters.escapeName_eq_self_iff`). So a
mapping that has been flattened is not left as it is once it is flattened again, unless all its keys
are plain names.
-/

namespace ParamCheck

/-! ## Leaves -/

namespace Value

/-- Whether a value is a leaf: a scalar or an empty container. -/
def isLeaf : Value → Bool
  | list items => items.isEmpty
  | dict entries => entries.isEmpty
  | _ => true

/-- A leaf is its only leaf. -/
theorem leaves_of_isLeaf {v : Value} (h : v.isLeaf = true) : leaves v = [([], v)] := by
  cases v with
  | list items =>
    obtain rfl := List.isEmpty_iff.1 h
    rfl
  | dict entries =>
    obtain rfl := List.isEmpty_iff.1 h
    rfl
  | _ => rfl

/-- There are no keys on the way to a leaf. -/
theorem keysWritable_of_isLeaf {v : Value} (h : v.isLeaf = true) : v.keysWritable = true := by
  cases v with
  | list items =>
    obtain rfl := List.isEmpty_iff.1 h
    rfl
  | dict entries =>
    obtain rfl := List.isEmpty_iff.1 h
    rfl
  | _ => rfl

mutual

/-- The leaves of a value are leaves. -/
theorem isLeaf_of_mem_leaves {v : Value} {l : Path × Value} (h : l ∈ leaves v) :
    l.2.isLeaf = true := by
  cases v with
  | dict entries =>
    cases entries with
    | nil =>
      obtain rfl := List.mem_singleton.1 h
      rfl
    | cons e rest => exact isLeaf_of_mem_entryLeaves h
  | list items =>
    cases items with
    | nil =>
      obtain rfl := List.mem_singleton.1 h
      rfl
    | cons v rest => exact isLeaf_of_mem_itemLeaves h
  | _ =>
    obtain rfl := List.mem_singleton.1 h
    rfl

/-- The leaves of the entries of a mapping are leaves. -/
theorem isLeaf_of_mem_entryLeaves {entries : List (Value × Value)} {l : Path × Value}
    (h : l ∈ leaves.entryLeaves entries) : l.2.isLeaf = true := by
  match entries with
  | [] => cases h
  | (k, v) :: rest =>
    rcases List.mem_append.1 h with h | h
    · obtain ⟨l', hl', rfl⟩ := List.mem_map.1 h
      exact isLeaf_of_mem_leaves (l := l') hl'
    · exact isLeaf_of_mem_entryLeaves h

/-- The leaves of the items of a list are leaves. -/
theorem isLeaf_of_mem_itemLeaves {n : Nat} {items : List Value} {l : Path × Value}
    (h : l ∈ leaves.itemLeaves n items) : l.2.isLeaf = true := by
  match items with
  | [] => cases h
  | v :: rest =>
    rcases List.mem_append.1 h with h | h
    · obtain ⟨l', hl', rfl⟩ := List.mem_map.1 h
      exact isLeaf_of_mem_leaves (l := l') hl'
    · exact isLeaf_of_mem_itemLeaves h

end

end Value

/-! ## Names without marks -/

namespace Delimiters

variable {d : Delimiters}

/-- Escaping does not shorten a name. -/
theorem length_le_escapeMarks (cs : List Char) : cs.length ≤ (d.escapeMarks cs).length := by
  fun_induction escapeMarks d cs with
  | case1 cs m rest hfirst ih =>
    obtain ⟨-, rfl⟩ := eq_append_of_first? hfirst
    simp only [List.length_append]
    omega
  | case2 => exact Nat.zero_le _
  | case3 between c cs hfirst ih =>
    simp only [List.length_append, List.length_cons]
    omega

/-- Nothing is put between two characters exactly when no mark is empty. -/
theorem between_eq_nil_iff (he : d.escape ≠ []) :
    (if d.pair.contains [] then d.escape else []) = [] ↔ [] ∉ d.marks := by
  have hmarks : [] ∈ d.marks ↔ [] ∈ d.pair := by simp [marks, Ne.symm he]
  by_cases hnil : [] ∈ d.pair <;> simp [hmarks, hnil, he]

/-- An escape sequence leaves a name exactly when no mark occurs in it. -/
theorem escapeMarks_eq_self_iff (he : d.escape ≠ []) (cs : List Char) :
    d.escapeMarks cs = cs ↔ ∀ m ∈ d.marks, ¬m <:+: cs := by
  fun_induction escapeMarks d cs with
  | case1 cs m rest hfirst ih =>
    obtain ⟨hm, rfl⟩ := eq_append_of_first? hfirst
    have hlonger := length_le_escapeMarks (d := d) rest
    have hescape := List.length_pos_iff.2 he
    constructor
    · intro h
      have hlength := congrArg List.length h
      simp only [List.length_append] at hlength
      omega
    · intro h
      exact absurd (List.prefix_append m rest).isInfix (h m hm)
  | case2 =>
    have hbetween := between_eq_nil_iff he
    have hempty : (∀ m ∈ d.marks, ¬m <:+: []) ↔ [] ∉ d.marks := by
      simp only [List.infix_nil]
      exact ⟨fun h hm => h [] hm rfl, fun h m hm hnil => h (hnil ▸ hm)⟩
    exact hbetween.trans hempty.symm
  | case3 between c cs hfirst ih =>
    have hbetween : between = [] ↔ [] ∉ d.marks := between_eq_nil_iff he
    have hlonger := length_le_escapeMarks (d := d) cs
    constructor
    · intro h m hm hinside
      have hlength := congrArg List.length h
      simp only [List.length_append, List.length_cons] at hlength
      have hnothing : between = [] := List.eq_nil_of_length_eq_zero (by omega)
      have hne : m ≠ [] := fun hnil => hbetween.1 hnothing (hnil ▸ hm)
      rw [hnothing, List.nil_append] at h
      -- No mark begins at the first character, and none occurs after it.
      rcases List.infix_cons_iff.1 hinside with hbegins | hlater
      · exact first?_eq_none_iff.1 hfirst m hm hne hbegins
      · exact ih.1 (List.cons.inj h).2 m hm hlater
    · intro h
      have hnothing : between = [] := hbetween.2 fun hnil => h [] hnil List.nil_infix
      have hlater : ∀ m ∈ d.marks, ¬m <:+: cs :=
        fun m hm hinside => h m hm (hinside.trans (List.suffix_cons c cs).isInfix)
      rw [hnothing, ih.2 hlater, List.nil_append]

/-- A name stands in a flat key as it is exactly when nothing is escaped or no mark occurs in it. -/
theorem escapeName_eq_self_iff (cs : List Char) :
    d.escapeName cs = cs ↔ d.escape = [] ∨ ∀ m ∈ d.marks, ¬m <:+: cs := by
  unfold escapeName
  by_cases he : d.escape = []
  · simp [he]
  · simp only [he, if_false, false_or]
    exact escapeMarks_eq_self_iff he cs

/-! ## Entries that are flat -/

/-- An entry that is its own flat form: its value is a leaf, and its key is a name in which nothing is
escaped. -/
structure Flat (d : Delimiters) (e : Value × Value) : Prop where
  leaf : e.2.isLeaf = true
  name : ∃ s, e.1 = .str s ∧ (d.escape = [] ∨ ∀ m ∈ d.marks, ¬m <:+: s.toList)

/-- The keys of flat entries can be written. -/
theorem keysWritable_of_flat {entries : List (Value × Value)} (h : ∀ e ∈ entries, d.Flat e) :
    (Value.dict entries).keysWritable = true := by
  refine Value.keysWritable_dict_iff.2 fun e he => ?_
  obtain ⟨hleaf, s, hs, -⟩ := h e he
  exact ⟨hs ▸ rfl, Value.keysWritable_of_isLeaf hleaf⟩

/-- The flat form of an entry whose value is a leaf. -/
def rekey (d : Delimiters) (e : Value × Value) : Value × Value :=
  (.str (String.ofList (d.escapeName e.1.text.toList)), e.2)

/-- The leaves of a mapping to leaves are its values, under its keys. -/
theorem flatEntry_entryLeaves {entries : List (Value × Value)}
    (h : ∀ e ∈ entries, e.2.isLeaf = true) :
    (Value.leaves.entryLeaves entries).map d.flatEntry = entries.map d.rekey := by
  induction entries with
  | nil => rfl
  | cons e rest ih =>
    obtain ⟨hleaf, hrest⟩ := List.forall_mem_cons.1 h
    obtain ⟨k, v⟩ := e
    rw [Value.leaves.entryLeaves, Value.leaves_of_isLeaf hleaf, List.map_append, ih hrest]
    simp [flatEntry, rekey, spell]

/-- An entry with a leaf is flat exactly when it is its own flat form. -/
theorem rekey_eq_self_iff {e : Value × Value} (hleaf : e.2.isLeaf = true) :
    d.rekey e = e ↔ d.Flat e := by
  obtain ⟨k, v⟩ := e
  constructor
  · intro h
    have hkey : Value.str (String.ofList (d.escapeName k.text.toList)) = k := congrArg Prod.fst h
    obtain ⟨s, rfl⟩ : ∃ s, k = .str s := ⟨_, hkey.symm⟩
    have hname : d.escapeName s.toList = s.toList := by
      have hlist := congrArg String.toList (Value.str.inj hkey)
      rwa [String.toList_ofList] at hlist
    exact ⟨hleaf, s, rfl, (escapeName_eq_self_iff _).1 hname⟩
  · rintro ⟨-, s, rfl : k = .str s, hs⟩
    have hname : d.escapeName s.toList = s.toList := (escapeName_eq_self_iff _).2 hs
    show (Value.str (String.ofList (d.escapeName s.toList)), v) = (.str s, v)
    rw [hname, String.ofList_toList]

/-- Flattening leaves a mapping exactly when all its entries are flat. -/
theorem flatten_eq_self_iff {params : Entries Value} (hparams : params.Distinct) :
    d.flatten params = params ↔ ∀ e ∈ params, d.Flat e := by
  have hflatten : d.flatten params =
      Entries.ofPairs ((Value.leaves.entryLeaves params).map d.flatEntry) := rfl
  constructor
  · intro h
    have hleaf : ∀ e ∈ params, e.2.isLeaf = true := by
      intro e he
      rw [← h, hflatten] at he
      obtain ⟨p, hp, hvalue⟩ := Entries.exists_of_mem_ofPairs he
      obtain ⟨l, hl, rfl⟩ := List.mem_map.1 hp
      rw [← hvalue]
      exact Value.isLeaf_of_mem_entryLeaves hl
    -- As many entries come out as go in, so that none has taken the place of another one.
    rw [hflatten, flatEntry_entryLeaves hleaf] at h
    have hlength := congrArg List.length h
    have hdistinct : Entries.Distinct (params.map d.rekey) :=
      Entries.distinct_of_length_ofPairs (hlength.trans (List.length_map _).symm)
    rw [Entries.ofPairs_of_distinct hdistinct] at h
    have hsame : params.map d.rekey = params.map id := h.trans (List.map_id _).symm
    exact fun e he => (rekey_eq_self_iff (hleaf e he)).1 (List.map_inj_left.1 hsame e he)
  · intro h
    have hsame : params.map d.rekey = params := by
      calc params.map d.rekey = params.map id :=
            List.map_inj_left.2 fun e he => (rekey_eq_self_iff (h e he).leaf).2 (h e he)
        _ = params := List.map_id _
    rw [hflatten, flatEntry_entryLeaves fun e he => (h e he).leaf, hsame,
      Entries.ofPairs_of_distinct hparams]

end Delimiters

end ParamCheck
