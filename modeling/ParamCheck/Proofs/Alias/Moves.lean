import Mathlib.Data.List.Basic
import ParamCheck.Proofs.Alias

/-!
# What a move leaves

A move goes by which aliases are present and not by values (`AliasMap.move_mapValues`). It takes
each field that has an alias present, in the order of the alias map (`AliasMap.move_snd`,
`AliasMap.lookup_move_snd`). Of the names that are not those of fields, an alias loses its parameter
if its field takes one, and every other name keeps what it had (`AliasMap.lookup_move_alias`,
`AliasMap.lookup_move_other`). So what is found at a name afterwards depends on the aliases that it
has and on whether its own field takes it (`AliasMap.lookup_move_congr`).
-/

namespace ParamCheck.AliasMap

variable {α β : Type}

/-! ## Values make no difference -/

/-- Which name is found to be present does not depend on values. -/
theorem lastPresent?_mapValues (g : α → β) (params : Entries α) (names : List Value) :
    lastPresent? (params.mapValues g) names = lastPresent? params names := by
  refine lastPresent?_congr fun a _ => ?_
  unfold Entries.contains
  rw [Entries.lookup_mapValues, Option.isSome_map]

/-- Names that are dropped have no parameters. -/
theorem lookup_foldl_erase_self {names : List Value} {k : Value} (hk : k ∈ names) :
    ∀ params : Entries α, (names.foldl Entries.erase params).lookup k = none := by
  have hkeep : ∀ (names : List Value) (params : Entries α), params.lookup k = none →
      (names.foldl Entries.erase params).lookup k = none := by
    intro names
    induction names with
    | nil => exact fun _ h => h
    | cons a rest ih =>
      intro params h
      refine ih _ ?_
      rw [Entries.lookup_erase, h]
      split <;> rfl
  induction names with
  | nil => exact absurd hk List.not_mem_nil
  | cons a rest ih =>
    intro params
    rcases List.mem_cons.1 hk with rfl | hk
    · refine hkeep rest _ ?_
      rw [Entries.lookup_erase, if_pos rfl]
    · exact ih hk _

/-- A function on the values can be applied before or after names are dropped. -/
theorem mapValues_foldl_erase (g : α → β) (names : List Value) :
    ∀ params : Entries α,
      names.foldl Entries.erase (params.mapValues g) =
        Entries.mapValues g (names.foldl Entries.erase params) := by
  induction names with
  | nil => exact fun _ => rfl
  | cons a rest ih =>
    intro params
    rw [List.foldl_cons, List.foldl_cons, ← Entries.mapValues_erase, ih]

/-- A function on the values can be applied before or after the move of one field. -/
theorem moveField_mapValues (g : α → β) (name : Value) (names : List Value) (params : Entries α)
    (moved : Entries Value) :
    moveField name names (params.mapValues g) moved =
      ((moveField name names params moved).1.mapValues g,
        (moveField name names params moved).2) := by
  unfold moveField
  rw [lastPresent?_mapValues]
  cases lastPresent? params names with
  | none => rfl
  | some s =>
    dsimp only
    rw [Entries.lookup_mapValues]
    cases params.lookup s with
    | none => rfl
    | some v =>
      dsimp only [Option.map_some]
      rw [mapValues_foldl_erase, Entries.mapValues_insert]

/-- A function on the values can be applied before or after a move. -/
theorem move_mapValues (g : α → β) (m : AliasMap) (params : Entries α) :
    m.move (params.mapValues g) = ((m.move params).1.mapValues g, (m.move params).2) := by
  have hfold : ∀ (es : Entries (List Value)) (params : Entries α) (moved : Entries Value),
      es.foldl (fun p e => moveField e.1 e.2 p.1 p.2) (params.mapValues g, moved) =
        let after := es.foldl (fun p e => moveField e.1 e.2 p.1 p.2) (params, moved)
        (after.1.mapValues g, after.2) := by
    intro es
    induction es with
    | nil => exact fun _ _ => rfl
    | cons e rest ih =>
      intro params moved
      rw [List.foldl_cons, List.foldl_cons]
      dsimp only
      rw [moveField_mapValues, ih]
  exact hfold m.fields params []

/-! ## The fields that are moved -/

/-- The fields of a list that have an alias present, each with the one that supplies it. -/
def moves (es : Entries (List Value)) (params : Entries α) : Entries Value :=
  es.filterMap fun e => (lastPresent? params e.2).map (e.1, ·)

/-- The move of the first field comes first. -/
theorem moves_cons (name : Value) (names : List Value) (rest : Entries (List Value))
    (params : Entries α) :
    moves ((name, names) :: rest) params =
      (match lastPresent? params names with
        | some s => [(name, s)]
        | none => []) ++ moves rest params := by
  unfold moves
  rw [List.filterMap_cons]
  dsimp only
  cases lastPresent? params names <;> rfl

/-- The aliases of the other fields are found as they were before the move of the first one. -/
theorem Apart.lastPresent?_moveField {name : Value} {names : List Value}
    {rest : Entries (List Value)} (h : Apart ((name, names) :: rest)) (params : Entries α)
    (moved : Entries Value) {e : Value × List Value} (he : e ∈ rest) :
    lastPresent? (moveField name names params moved).1 e.2 = lastPresent? params e.2 := by
  refine lastPresent?_congr fun a ha => ?_
  unfold Entries.contains
  rw [h.lookup_moveField params moved he ha]

/-- Fields that are moved one after the other are put behind those that were. -/
theorem foldl_moveField_snd {es : Entries (List Value)} (hes : Apart es) :
    ∀ (params : Entries α) (moved : Entries Value), (∀ e ∈ es, moved.lookup e.1 = none) →
      (es.foldl (fun p e => moveField e.1 e.2 p.1 p.2) (params, moved)).2 =
        moved ++ moves es params := by
  induction es with
  | nil => exact fun _ _ _ => (List.append_nil _).symm
  | cons e rest ih =>
    intro params moved hnew
    obtain ⟨name, names⟩ := e
    have hothers : moves rest (moveField name names params moved).1 = moves rest params := by
      unfold moves
      refine List.filterMap_congr fun e he => ?_
      rw [hes.lastPresent?_moveField params moved he]
    have hput : (moveField name names params moved).2 =
        moved ++ match lastPresent? params names with
          | some s => [(name, s)]
          | none => [] := by
      unfold moveField
      cases hs : lastPresent? params names with
      | none => exact (List.append_nil _).symm
      | some s =>
        obtain ⟨-, v, hv⟩ := lastPresent?_eq_some hs
        dsimp only
        rw [hv]
        exact Entries.insert_of_absent (hnew _ List.mem_cons_self) s
    have hlater : ∀ e ∈ rest, (moveField name names params moved).2.lookup e.1 = none := by
      intro e he
      have hname : name.key? ≠ e.1.key? := (List.pairwise_cons.1 hes.distinct).1 e he
      have hnames : ∀ a ∈ names, a.key? ≠ e.1.key? :=
        hes.ne_name e (List.mem_cons_of_mem _ he) _ List.mem_cons_self
      rw [(lookup_moveField name params moved hnames).2, hnew e (List.mem_cons_of_mem _ he)]
      cases lastPresent? params names with
      | none => rfl
      | some s => exact if_neg hname
    rw [List.foldl_cons]
    dsimp only
    rw [ih hes.tail _ _ hlater, hothers, hput, List.append_assoc, moves_cons]

/-- Each field of a list is supplied by its own aliases. -/
theorem source?_of_mem {es : Entries (List Value)} (hes : es.Distinct) {e : Value × List Value}
    (he : e ∈ es) (params : Entries α) : source? es params e.1 = lastPresent? params e.2 := by
  induction es with
  | nil => exact absurd he List.not_mem_nil
  | cons f rest ih =>
    obtain ⟨name, names⟩ := f
    obtain ⟨hname, hrest⟩ := List.pairwise_cons.1 hes
    rcases List.mem_cons.1 he with rfl | he
    · exact source?_cons_self rfl names rest params
    · rw [source?_cons_of_ne (hname e he), ih hrest he]

/-- The names of the fields that are moved, in the order of the list. -/
theorem keys_moves {es : Entries (List Value)} (hes : es.Distinct) (params : Entries α) :
    (moves es params).keys = es.keys.filter fun k => (source? es params k).isSome := by
  have hfields : (moves es params).keys =
      Entries.keys (es.filter fun e => (lastPresent? params e.2).isSome) := by
    clear hes
    induction es with
    | nil => rfl
    | cons e rest ih =>
      obtain ⟨name, names⟩ := e
      rw [moves_cons, List.filter_cons]
      dsimp only
      cases lastPresent? params names with
      | none => exact ih
      | some s => exact congrArg (name :: ·) ih
  rw [hfields]
  unfold Entries.keys
  rw [List.filter_map]
  refine congrArg (List.map _) (List.filter_congr fun e he => ?_)
  show _ = (source? es params e.1).isSome
  rw [source?_of_mem hes he]

/-- A field that is moved is found with the alias that supplies it. -/
theorem lookup_moves {es : Entries (List Value)} (hes : es.Distinct) (params : Entries α)
    (k : Value) : (moves es params).lookup k = source? es params k := by
  induction es with
  | nil => rfl
  | cons e rest ih =>
    obtain ⟨name, names⟩ := e
    obtain ⟨hname, hrest⟩ := List.pairwise_cons.1 hes
    rw [moves_cons, Entries.lookup_append, ih hrest]
    by_cases hkey : name.key? = k.key?
    · -- No later field has the name.
      have hnone : Entries.lookup rest k = none :=
        Entries.lookup_eq_none_iff.2 fun e he => hkey ▸ (hname e he).symm
      rw [source?_cons_self hkey, source?, hnone, Option.bind_none, Option.or_none]
      cases lastPresent? params names with
      | none => rfl
      | some s => exact if_pos hkey
    · rw [source?_cons_of_ne hkey]
      cases lastPresent? params names with
      | none => rfl
      | some s => rw [Entries.lookup, if_neg hkey, Entries.lookup_nil, Option.none_or]

section

variable {declared : Entries Field} {m : AliasMap} (hm : Fits declared m) (hd : declared.Distinct)

include hm hd

/-- A move takes the fields that have an alias present, in the order of the alias map. -/
theorem move_snd (params : Entries α) : (m.move params).2 = moves m.fields params :=
  (foldl_moveField_snd (hm.apart hd) params [] fun _ _ => rfl).trans (List.nil_append _)

/-- A field that is moved is found with the alias that supplies it. -/
theorem lookup_move_snd (params : Entries α) (k : Value) :
    (m.move params).2.lookup k = source? m.fields params k := by
  rw [move_snd hm hd, lookup_moves (hm.apart hd).distinct]

end

/-! ## What is found at a name -/

/-- After the moves of a list of fields, an alias of one of them has no parameter if that field takes
one, and otherwise its own. -/
theorem lookup_foldl_moveField_alias {es : Entries (List Value)} (hes : Apart es)
    {e : Value × List Value} (he : e ∈ es) {a : Value} (ha : a ∈ e.2) :
    ∀ (params : Entries α) (moved : Entries Value),
      (es.foldl (fun p e => moveField e.1 e.2 p.1 p.2) (params, moved)).1.lookup a =
        if (lastPresent? params e.2).isSome then none else params.lookup a := by
  induction es with
  | nil => exact absurd he List.not_mem_nil
  | cons f rest ih =>
    intro params moved
    obtain ⟨name, names⟩ := f
    rw [List.foldl_cons]
    dsimp only
    rcases List.mem_cons.1 he with rfl | he
    · -- The later moves touch neither the aliases of this field nor its name.
      have hlater : ∀ e ∈ rest, ∀ b ∈ e.2, b.key? ≠ a.key? := fun e he b hb h =>
        (List.pairwise_cons.1 hes.unshared).1 e he a ha b hb h.symm
      have hname : a.key? ≠ name.key? := hes.ne_name _ List.mem_cons_self _ List.mem_cons_self a ha
      have hnone : ∀ p : Entries α, source? rest p a = none := by
        intro p
        unfold source?
        rw [Entries.lookup_eq_none_iff.2 fun e he =>
          (hes.ne_name e (List.mem_cons_of_mem _ he) _ List.mem_cons_self a ha).symm,
          Option.bind_none]
      rw [(lookup_foldl_moveField hes.tail hlater _ _).1, hnone, Option.getD_none]
      unfold moveField
      dsimp only
      cases hs : lastPresent? params names with
      | none => rfl
      | some s =>
        obtain ⟨-, v, hv⟩ := lastPresent?_eq_some hs
        dsimp only
        rw [hv, Option.isSome_some, if_pos rfl]
        dsimp only
        rw [Entries.lookup_insert, if_neg hname.symm, lookup_foldl_erase_self ha]
    · rw [ih hes.tail he, hes.lastPresent?_moveField params moved he,
        hes.lookup_moveField params moved he ha]

/-- A name is an alias, and its field takes no parameter. -/
def Stays (m : AliasMap) (params : Entries α) (k : Value) : Prop :=
  ∃ e ∈ m.fields, (∃ a ∈ e.2, a.key? = k.key?) ∧ lastPresent? params e.2 = none

instance (m : AliasMap) (params : Entries α) (k : Value) : Decidable (m.Stays params k) :=
  inferInstanceAs (Decidable (∃ e ∈ m.fields, _ ∧ _ = none))

/-- The name of a field does not stay as an alias does. -/
theorem Fits.not_stays {declared : Entries Field} {m : AliasMap} (hm : Fits declared m) {k : Value}
    {f : Field} (hk : declared.lookup k = some f) (params : Entries α) : ¬m.Stays params k := by
  rintro ⟨e, he, ⟨a, ha, hkey⟩, -⟩
  exact hm.ne_alias hk e he a ha hkey

/-- A name and the aliases of its field. -/
def family (m : AliasMap) (k : Value) : List Value := k :: (m.fields.lookup k).getD []

/-- Which alias supplies a field depends on which of them are present. -/
theorem source?_of_family {m : AliasMap} {params : Entries α} {params' : Entries β} {k : Value}
    (h : ∀ a ∈ m.family k, params.contains a = params'.contains a) :
    source? m.fields params k = source? m.fields params' k := by
  unfold family at h
  unfold source?
  cases hnames : m.fields.lookup k with
  | none => rfl
  | some names =>
    rw [hnames] at h
    exact lastPresent?_congr fun a ha => h a (List.mem_cons_of_mem _ ha)

/-- The key that supplies a name is the name or an alias of its field. -/
theorem source?_mem_family (m : AliasMap) (params : Entries α) (k : Value) :
    (source? m.fields params k).getD k ∈ m.family k := by
  unfold source? family
  cases hnames : m.fields.lookup k with
  | none => exact List.mem_cons_self
  | some names =>
    show (lastPresent? params names).getD k ∈ k :: names
    cases hs : lastPresent? params names with
    | none => exact List.mem_cons_self
    | some s => exact List.mem_cons_of_mem _ (lastPresent?_eq_some hs).1

section

variable {declared : Entries Field} {m : AliasMap} (hm : Fits declared m) (hd : declared.Distinct)

include hm hd

/-- After a move an alias has no parameter if its field takes one, and otherwise its own. -/
theorem lookup_move_of_mem {e : Value × List Value} (he : e ∈ m.fields) {a k : Value} (ha : a ∈ e.2)
    (hkey : a.key? = k.key?) (params : Entries α) :
    (m.move params).1.lookup k =
      if (lastPresent? params e.2).isSome then none else params.lookup k := by
  rw [← Entries.lookup_congr hkey, ← Entries.lookup_congr hkey]
  exact lookup_foldl_moveField_alias (hm.apart hd) he ha params []

/-- After a move an alias has no parameter unless it stays. -/
theorem lookup_move_alias {k : Value} (hk : ∃ e ∈ m.fields, ∃ a ∈ e.2, a.key? = k.key?)
    (params : Entries α) :
    (m.move params).1.lookup k = if m.Stays params k then params.lookup k else none := by
  have hfield : ∀ e ∈ m.fields, (∃ a ∈ e.2, a.key? = k.key?) →
      (m.move params).1.lookup k =
        if (lastPresent? params e.2).isSome then none else params.lookup k := by
    rintro e he ⟨a, ha, hkey⟩
    exact lookup_move_of_mem hm hd he ha hkey params
  split
  · next hstays =>
    obtain ⟨e, he, halias, hnone⟩ := hstays
    rw [hfield e he halias, hnone]
    rfl
  · next hstays =>
    obtain ⟨e, he, halias⟩ := hk
    have hsome : (lastPresent? params e.2).isSome = true := by
      rw [Option.isSome_iff_ne_none]
      exact fun hnone => hstays ⟨e, he, halias, hnone⟩
    rw [hfield e he halias, if_pos hsome]

/-- What is found at a name after a move depends on the parameters of the name and of the aliases of
its field, and, if the name is present, on whether it is an alias that stays. -/
theorem lookup_move_congr {params params' : Entries α} {k : Value}
    (hfamily : ∀ a ∈ m.family k, params.lookup a = params'.lookup a)
    (hstays : params.contains k = true → (m.Stays params k ↔ m.Stays params' k)) :
    (m.move params).1.lookup k = (m.move params').1.lookup k := by
  have hself : params.lookup k = params'.lookup k := hfamily k List.mem_cons_self
  by_cases hk : ∃ e ∈ m.fields, ∃ a ∈ e.2, a.key? = k.key?
  · rw [lookup_move_alias hm hd hk, lookup_move_alias hm hd hk, ← hself]
    unfold Entries.contains at hstays
    cases hparam : params.lookup k with
    | none => rw [ite_self, ite_self]
    | some v =>
      rw [hparam] at hstays
      simp only [hstays rfl]
  · have hother : ∀ e ∈ m.fields, ∀ a ∈ e.2, a.key? ≠ k.key? :=
      fun e he a ha hkey => hk ⟨e, he, a, ha, hkey⟩
    have hsource : source? m.fields params k = source? m.fields params' k := by
      refine source?_of_family fun a ha => ?_
      unfold Entries.contains
      rw [hfamily a ha]
    rw [(lookup_move_other hm hd hother params).1, (lookup_move_other hm hd hother params').1,
      ← hsource]
    exact hfamily _ (source?_mem_family m params k)

end

end ParamCheck.AliasMap
