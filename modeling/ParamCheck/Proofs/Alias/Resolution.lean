import ParamCheck.Proofs.Alias.Collision
import ParamCheck.Proofs.Alias.Moves

/-!
# What a move does

The alias that supplies a field is the last one present in the list that the field has in the map, which
has each alias where it is first declared (`AliasMap.lastPresent?_eq_some_iff`). If that is the empty name,
which also stands for no alias, the field is not moved and the parameters of all its aliases stay.
Every other field with an alias present is moved, and each move is as if it were the only one
(`AliasMap.movesBy_build`). So a second move finds nothing to do (`AliasMap.move_again`).
-/

namespace ParamCheck.AliasMap

variable {α : Type}

/-! ## The last alias present -/

/-- The name is one of the list and has a parameter, and no name after it has one. -/
def LastPresent (params : Entries α) (names : List Value) (s : Value) : Prop :=
  ∃ before after, names = before ++ s :: after ∧ params.contains s = true ∧
    ∀ a ∈ after, params.contains a = false

/-- The name that a search from the end finds is the last one present. -/
theorem find?_reverse_eq_some_iff {params : Entries α} {names : List Value} {s : Value} :
    names.reverse.find? params.contains = some s ↔ LastPresent params names s := by
  rw [List.find?_eq_some_iff_append]
  constructor
  · rintro ⟨hs, after, before, hnames, hnone⟩
    refine ⟨before.reverse, after.reverse, ?_, hs, fun a ha => ?_⟩
    · rw [← List.reverse_reverse names, hnames, List.reverse_append, List.reverse_cons,
        List.append_assoc, List.singleton_append]
    · simpa using hnone a (List.mem_reverse.1 ha)
  · rintro ⟨before, after, rfl, hs, hnone⟩
    refine ⟨hs, after.reverse, before.reverse, ?_, fun a ha => ?_⟩
    · rw [List.reverse_append, List.reverse_cons, List.append_assoc, List.singleton_append]
    · simpa using hnone a (List.mem_reverse.1 ha)

/-- The alias that is found is the last one present, unless that is the empty name. -/
theorem lastPresent?_eq_some_iff {params : Entries α} {names : List Value} {s : Value} :
    lastPresent? params names = some s ↔ LastPresent params names s ∧ s ≠ .null := by
  rw [← find?_reverse_eq_some_iff]
  unfold lastPresent?
  split
  · next h =>
    rw [h]
    refine ⟨fun hs => (by cases hs), ?_⟩
    rintro ⟨hs, hne⟩
    exact absurd (Option.some.inj hs).symm hne
  · next hne =>
    refine ⟨fun hs => ⟨hs, ?_⟩, fun hs => hs.1⟩
    rintro rfl
    exact hne hs

/-- No alias is found if none is present or the last one is the empty name. -/
theorem lastPresent?_eq_none_iff {params : Entries α} {names : List Value} :
    lastPresent? params names = none ↔
      LastPresent params names .null ∨ ∀ a ∈ names, params.contains a = false := by
  have hnone : names.reverse.find? params.contains = none ↔
      ∀ a ∈ names, params.contains a = false := by
    simp
  rw [← find?_reverse_eq_some_iff, ← hnone]
  unfold lastPresent?
  split
  · next h => exact ⟨fun _ => .inl h, fun _ => rfl⟩
  · next hne => exact ⟨.inr, fun h => h.resolve_left hne⟩

/-! ## The move -/

/-- What a move does if a field is supplied by the alias that `source` gives, if any, and keeps its aliases
if it is `stuck`. -/
structure MovesBy (source : Field → Value → Prop) (stuck : Field → Prop) (declared : Entries Field)
    (m : AliasMap) (params : Entries α) : Prop where
  /-- The fields that are moved are those with a source, each with that. -/
  moved_iff : ∀ name s, (m.move params).2.lookup name = some s ↔
    ∃ f, declared.lookup name = some f ∧ source f s
  /-- A field that is moved has the parameter of its source, whatever it had. -/
  supplied : ∀ name s, (m.move params).2.lookup name = some s →
    ∃ v, params.lookup s = some v ∧ (m.move params).1.lookup name = some v
  /-- No alias of a field that is not stuck has a parameter. -/
  dropped : ∀ e ∈ declared, ¬stuck e.2 → ∀ k, e.2.Lists k → (m.move params).1.lookup k = none
  /-- The aliases of a field that is stuck have the parameters that they had. -/
  kept : ∀ e ∈ declared, stuck e.2 → ∀ k, e.2.Lists k →
    (m.move params).1.lookup k = params.lookup k
  /-- What is no alias and is not moved has the parameter that it had. -/
  other : ∀ k, (∀ e ∈ declared, ¬e.2.Lists k) → (m.move params).2.lookup k = none →
    (m.move params).1.lookup k = params.lookup k
  /-- The source of a field is the one that is found before the move. -/
  sourceKey_eq : ∀ name, name.isKey = true →
    m.sourceKey name params = .ok ((m.move params).2.lookup name)
  /-- A second move does nothing. -/
  again : m.move (m.move params).1 = ((m.move params).1, [])
  /-- Each key stands once, among the parameters and among the fields that were moved. -/
  distinct : (m.move params).1.Distinct ∧ (m.move params).2.Distinct

/-- A field of which no alias is found is not moved. -/
theorem moveField_of_none (name : Value) {names : List Value} {params : Entries α}
    (h : lastPresent? params names = none) (moved : Entries Value) :
    moveField name names params moved = (params, moved) := by
  unfold moveField
  rw [h]

/-- Fields of which no alias is found are not moved. -/
theorem foldl_moveField_of_none {es : Entries (List Value)} {params : Entries α}
    (h : ∀ e ∈ es, lastPresent? params e.2 = none) (moved : Entries Value) :
    es.foldl (fun p e => moveField e.1 e.2 p.1 p.2) (params, moved) = (params, moved) := by
  induction es with
  | nil => rfl
  | cons e rest ih =>
    obtain ⟨he, hrest⟩ := List.forall_mem_cons.1 h
    rw [List.foldl_cons, moveField_of_none e.1 he]
    exact ih hrest

section

variable {declared : Entries Field} {m : AliasMap} (hm : Fits declared m) (hd : declared.Distinct)

include hm hd

/-- After a move no alias of a field is found. -/
theorem lastPresent?_move {e : Value × List Value} (he : e ∈ m.fields) (params : Entries α) :
    lastPresent? (m.move params).1 e.2 = none := by
  have hafter : ∀ a ∈ e.2, (m.move params).1.lookup a =
      if (lastPresent? params e.2).isSome then none else params.lookup a :=
    fun a ha => lookup_move_of_mem hm hd he ha rfl params
  cases hs : lastPresent? params e.2 with
  | none =>
    -- All aliases have the parameters that they had.
    rw [← hs]
    refine lastPresent?_congr fun a ha => ?_
    unfold Entries.contains
    rw [hafter a ha, hs]
    rfl
  | some s =>
    refine lastPresent?_eq_none_iff.2 (.inr fun a ha => ?_)
    unfold Entries.contains
    rw [hafter a ha, hs]
    rfl

/-- A second move does nothing. -/
theorem move_again (params : Entries α) :
    m.move (m.move params).1 = ((m.move params).1, []) :=
  foldl_moveField_of_none (fun _ he => lastPresent?_move hm hd he params) []

/-- After a move an alias has no parameter if one of its field is found, and otherwise its own. -/
theorem lookup_move_of_lists {e : Value × Field} (he : e ∈ declared) {k : Value} (hk : e.2.Lists k)
    (params : Entries α) :
    (m.move params).1.lookup k =
      if (lastPresent? params (Value.unique e.2.aliases)).isSome then none else params.lookup k := by
  obtain ⟨a, ha, hkey⟩ := hk
  obtain ⟨b, hb, hbkey⟩ := Value.exists_mem_unique ha
  exact lookup_move_of_mem hm hd (hm.mem_fields he hb) hb (hbkey.trans hkey) params

/-- The source of a name is that of its field, if it is one. -/
theorem source?_eq_some_iff {params : Entries α} {name s : Value} :
    source? m.fields params name = some s ↔ ∃ f, declared.lookup name = some f ∧
      lastPresent? params (Value.unique f.aliases) = some s := by
  cases hname : declared.lookup name with
  | none =>
    rw [source?, hm.lookup_fields_eq_none hname, Option.bind_none]
    refine ⟨fun h => (by cases h), ?_⟩
    rintro ⟨f, h, -⟩
    cases h
  | some f =>
    rw [hm.fields_eq, source?_listed hd hname]
    refine ⟨fun h => ⟨f, rfl, h⟩, ?_⟩
    rintro ⟨f', h, hs⟩
    obtain rfl := Option.some.inj h
    exact hs

end

/-- In the map of declared fields, a move takes each field of which the last alias present is not the empty
name, and that alias supplies it. The aliases of a field whose last one is the empty name stay, and no
other alias does. -/
theorem movesBy_build {declared : Entries Field} {m : AliasMap} (hd : declared.Distinct)
    (h : build declared = .ok m) {params : Entries α} (hp : params.Distinct) :
    MovesBy (fun f s => LastPresent params (Value.firsts f.aliases) s ∧ s ≠ .null)
      (fun f => LastPresent params (Value.firsts f.aliases) .null) declared m params := by
  have hm : Fits declared m := build_fits hd h
  have hfirsts : ∀ e ∈ declared, Value.unique e.2.aliases = Value.firsts e.2.aliases :=
    fun e he => Value.unique_eq_firsts (isKey_of_addFields h e he)
  have hmoved : ∀ name s, (m.move params).2.lookup name = some s ↔ ∃ f, declared.lookup name = some f ∧
      LastPresent params (Value.firsts f.aliases) s ∧ s ≠ .null := by
    intro name s
    rw [lookup_move_snd hm hd, source?_eq_some_iff hm hd]
    refine exists_congr fun f => and_congr_right fun hf => ?_
    obtain ⟨l, hl, -⟩ := Entries.exists_mem_of_lookup hf
    rw [lastPresent?_eq_some_iff, hfirsts _ hl]
  refine ⟨hmoved, ?_, ?_, ?_, ?_, ?_, move_again hm hd params, distinct_move m hp⟩
  · intro name s hs
    obtain ⟨f, hf, hlast, -⟩ := (hmoved name s).1 hs
    obtain ⟨-, -, -, hpresent, -⟩ := hlast
    obtain ⟨v, hv⟩ := Option.isSome_iff_exists.1 hpresent
    rw [lookup_move_snd hm hd] at hs
    refine ⟨v, hv, ?_⟩
    rw [(lookup_move_other hm hd (hm.ne_alias hf) params).1, hs, Option.getD_some, hv]
  · intro e he hfree k hk
    rw [lookup_move_of_lists hm hd he hk]
    cases hs : lastPresent? params (Value.unique e.2.aliases) with
    | some s => rfl
    | none =>
      -- None of the aliases is present.
      rw [hfirsts e he] at hs
      have habsent := (lastPresent?_eq_none_iff.1 hs).resolve_left hfree
      obtain ⟨a, ha, hkey⟩ := hk
      obtain ⟨b, hb, hbkey⟩ := Value.exists_mem_unique ha
      rw [hfirsts e he] at hb
      have hnone := habsent b hb
      unfold Entries.contains at hnone
      rw [← Entries.lookup_congr (hbkey.trans hkey)]
      simpa using hnone
  · intro e he hstuck k hk
    rw [lookup_move_of_lists hm hd he hk, hfirsts e he, lastPresent?_eq_none_iff.2 (.inl hstuck)]
    rfl
  · intro k hk hs
    have hother : ∀ e ∈ m.fields, ∀ a ∈ e.2, a.key? ≠ k.key? := by
      intro e he a ha hkey
      obtain ⟨f, hf, hnames⟩ := hm.exists_declared he
      rw [hnames] at ha
      exact hk _ hf ⟨a, Value.mem_of_mem_unique ha, hkey⟩
    rw [lookup_move_snd hm hd] at hs
    rw [(lookup_move_other hm hd hother params).1, hs, Option.getD_none]
  · intro name hname
    unfold sourceKey
    rw [if_pos hname, lookup_move_snd hm hd, source?_eq]

/-- A field that lists an alias again. -/
def pager : Entries Field :=
  [(.str "pager", { name := .str "pager", directives :=
      [(.str "alias", .list [.str "page", .str "pg", .str "page"])] })]

/-- Both aliases are present, and the field and another parameter are, too: the second alias supplies the
field. -/
theorem movesBy_build_pager : ∃ m, build pager = .ok m ∧
    m.move [(.str "page", Value.int 1), (.str "pager", .int 2), (.str "pg", .int 3), (.str "x", .int 4)] =
      ([(.str "pager", .int 3), (.str "x", .int 4)], [(.str "pager", .str "pg")]) ∧
    m.move [(.str "pager", Value.int 3), (.str "x", .int 4)] =
      ([(.str "pager", .int 3), (.str "x", .int 4)], []) := by
  refine ⟨_, rfl, rfl, ?_⟩
  exact (@movesBy_build Value pager _ (by decide) rfl [(.str "page", .int 1), (.str "pager", .int 2),
    (.str "pg", .int 3), (.str "x", .int 4)] (by decide)).again

/-- A field with the empty name as an alias. -/
def unnamed : Entries Field :=
  [(.str "pager", { name := .str "pager", directives := [(.str "alias", .list [.null])] })]

/-- It is not the case that the last alias present always supplies the field and that no alias stays: of an
alias that is listed again only the first place counts, and the empty name counts as no alias. -/
theorem not_movesBy_lastPresent :
    (¬∀ (declared : Entries Field) (m : AliasMap) (params : Entries Value), declared.Distinct →
      build declared = .ok m → params.Distinct →
        MovesBy (fun f s => LastPresent params f.aliases s) (fun _ => False) declared m params) ∧
    ¬∀ (declared : Entries Field) (m : AliasMap) (params : Entries Value), declared.Distinct →
      build declared = .ok m → params.Distinct →
        MovesBy (fun f s => LastPresent params (Value.firsts f.aliases) s) (fun _ => False) declared m
          params := by
  constructor
  · intro h
    have hmoves := h pager _ [(.str "page", .int 1), (.str "pg", .int 3)] (by decide) rfl (by decide)
    have hmoved := (hmoves.moved_iff (.str "pager") (.str "page")).2
      ⟨_, rfl, [.str "page", .str "pg"], [], rfl, rfl, fun a ha => absurd ha List.not_mem_nil⟩
    have hsame : "pg" = "page" := Value.str.inj (Option.some.inj hmoved)
    exact absurd hsame (by decide)
  · intro h
    have hmoves := h unnamed _ [(.null, .int 1)] (by decide) rfl (by decide)
    have hdropped := hmoves.dropped _ List.mem_cons_self not_false .null ⟨.null, List.mem_cons_self, rfl⟩
    cases hdropped

end ParamCheck.AliasMap
