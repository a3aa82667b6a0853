import ParamCheck.Proofs.Alias.Moves
import ParamCheck.Proofs.Validator.Permutation
import ParamCheck.Proofs.Validator.Upkeep

/-!
# Selections

If the parameters and the fields of a validator stand under names, a run can be planned for any names
and for a mapping of names to names (`Validator.plan_returns`). A run without targets selects the
parameters that are left when aliases have been moved, so that a name among them is undeclared exactly
when the parameter of that name is neither that of a field nor that of an alias
(`Validator.exists_undeclared_iff`).
-/

namespace ParamCheck

/-- All values of a list are texts. -/
def Value.AllTexts (vs : List Value) : Prop := ∀ v ∈ vs, ∃ s : String, v = .str s

/-- Texts are texts. -/
theorem Value.allTexts_map (ts : List String) : AllTexts (ts.map .str) := by
  intro v hv
  obtain ⟨t, -, rfl⟩ := List.mem_map.1 hv
  exact ⟨t, rfl⟩

namespace Entries

variable {α : Type} {d : Entries α}

/-- Entries stand under texts after one of them is set under a text. -/
theorem allTexts_insert (h : Value.AllTexts d.keys) (s : String) (v : α) :
    Value.AllTexts (d.insert (.str s) v).keys := by
  intro k hk
  obtain ⟨e, he, rfl⟩ := List.mem_map.1 hk
  rcases mem_insert he with he | ⟨hkey, -⟩
  · exact h _ (List.mem_map_of_mem he)
  · exact ⟨s, Value.eq_str_of_key? hkey⟩

/-- Entries stand under texts after one of them is removed. -/
theorem allTexts_erase (h : Value.AllTexts d.keys) (k : Value) :
    Value.AllTexts (d.erase k).keys := by
  rw [erase_eq_filter]
  intro l hl
  obtain ⟨e, he, rfl⟩ := List.mem_map.1 hl
  exact h _ (List.mem_map_of_mem (List.mem_filter.1 he).1)

/-- A text is present exactly when it is among the keys. -/
theorem contains_str_iff {s : String} : d.contains (.str s) = true ↔ Value.str s ∈ d.keys := by
  unfold contains
  constructor
  · intro hs
    obtain ⟨v, hv⟩ := Option.isSome_iff_exists.1 hs
    obtain ⟨l, hl, hkey⟩ := exists_mem_of_lookup hv
    rw [← Value.eq_str_of_key? hkey]
    exact List.mem_map_of_mem hl
  · intro hs
    obtain ⟨v, hv⟩ := exists_lookup_of_mem_keys hs
    rw [hv]
    rfl

end Entries

namespace AliasMap

variable {α : Type} {declared : Entries Field} {m : AliasMap}

/-- The fields of an alias map have the names of declared fields. -/
theorem Fits.mem_keys (hm : Fits declared m) {k : Value} (hk : k ∈ m.fields.keys) :
    k ∈ declared.keys := by
  rw [hm.fields_eq] at hk
  obtain ⟨e, he, rfl⟩ := List.mem_map.1 hk
  rw [← Entries.keys_mapValues fun f : Field => Value.unique f.aliases]
  exact List.mem_map_of_mem (List.mem_filter.1 he).1

/-- Parameters stand under names after a move, and so do the fields that were moved. -/
theorem allTexts_move (hm : Fits declared m) (hnames : Value.AllTexts declared.keys)
    {params : Entries α} (h : Value.AllTexts params.keys) :
    Value.AllTexts (m.move params).1.keys ∧ Value.AllTexts (m.move params).2.keys := by
  have herase : ∀ (names : List Value) (p : Entries α), Value.AllTexts p.keys →
      Value.AllTexts (names.foldl Entries.erase p).keys := by
    intro names
    induction names with
    | nil => exact fun _ hp => hp
    | cons a rest ih => exact fun p hp => ih _ (Entries.allTexts_erase hp a)
  have hfold : ∀ (es : Entries (List Value)), (∀ e ∈ es, ∃ s : String, e.1 = .str s) →
      ∀ p : Entries α × Entries Value, Value.AllTexts p.1.keys → Value.AllTexts p.2.keys →
        Value.AllTexts (es.foldl (fun p e => moveField e.1 e.2 p.1 p.2) p).1.keys ∧
          Value.AllTexts (es.foldl (fun p e => moveField e.1 e.2 p.1 p.2) p).2.keys := by
    intro es
    induction es with
    | nil => exact fun _ _ hp hp' => ⟨hp, hp'⟩
    | cons e rest ih =>
      intro hes p hp hp'
      obtain ⟨name, names⟩ := e
      obtain ⟨⟨s, rfl⟩, hrest⟩ := List.forall_mem_cons.1 hes
      have hstep : Value.AllTexts (moveField (.str s) names p.1 p.2).1.keys ∧
          Value.AllTexts (moveField (.str s) names p.1 p.2).2.keys := by
        unfold moveField
        split
        · exact ⟨hp, hp'⟩
        · split
          · exact ⟨hp, hp'⟩
          · exact ⟨Entries.allTexts_insert (herase names p.1 hp) s _,
              Entries.allTexts_insert hp' s _⟩
      exact ih hrest _ hstep.1 hstep.2
  exact hfold m.fields (fun e he => hnames _ (hm.mem_keys (List.mem_map_of_mem he))) (params, []) h
    fun k hk => absurd hk List.not_mem_nil

/-- A text is among the aliases of a field exactly when the alias map has it. -/
theorem Fits.exists_alias_iff (hm : Fits declared m) (s : String) :
    (∃ e ∈ m.fields, ∃ a ∈ e.2, a.key? = (Value.str s).key?) ↔
      ∃ e ∈ declared, Value.str s ∈ e.2.aliases := by
  rw [hm.fields_eq]
  constructor
  · rintro ⟨e, he, a, ha, hkey⟩
    obtain ⟨g, hg, rfl⟩ := List.mem_map.1 (List.mem_filter.1 he).1
    obtain rfl := Value.eq_str_of_key? hkey
    exact ⟨g, hg, Value.mem_of_mem_unique ha⟩
  · rintro ⟨g, hg, hs⟩
    -- What is left out as a repetition of a text is that text.
    have hany : (Value.unique g.2.aliases).any (Value.str s).same = true := Report.any_addAll hs []
    obtain ⟨a, ha, hsame⟩ := List.any_eq_true.1 hany
    have hmem : (g.1, Value.unique g.2.aliases) ∈ listed declared := by
      refine List.mem_filter.2 ⟨List.mem_map_of_mem hg, ?_⟩
      simpa using List.ne_nil_of_mem ha
    obtain rfl := Value.eq_of_str_same hsame
    exact ⟨_, hmem, _, ha, rfl⟩

/-- If the parameters stand under names, one of several names that are present is found. -/
theorem lastPresent?_ne_none {params : Entries α} (h : Value.AllTexts params.keys)
    {names : List Value} {s : String} (hs : Value.str s ∈ names)
    (hpresent : params.contains (.str s) = true) : lastPresent? params names ≠ none := by
  have hfind : (names.reverse.find? params.contains).isSome = true :=
    List.find?_isSome.2 ⟨.str s, List.mem_reverse.2 hs, hpresent⟩
  obtain ⟨a, ha⟩ := Option.isSome_iff_exists.1 hfind
  have hfound : params.contains a = true := List.find?_some ha
  -- What is found is a key of the parameters, and so not null.
  obtain ⟨v, hv⟩ := Option.isSome_iff_exists.1 hfound
  obtain ⟨l, hl, hkey⟩ := Entries.exists_mem_of_lookup hv
  obtain ⟨t, rfl⟩ := h l (List.mem_map_of_mem hl)
  obtain rfl := Value.eq_str_of_key? hkey.symm
  unfold lastPresent?
  rw [ha]
  exact Option.some_ne_none _

/-- After a move a name that is not declared has its parameter, unless it is an alias and has none
left. -/
theorem contains_move_iff (hm : Fits declared m) (hd : declared.Distinct) {params : Entries α}
    (hparams : Value.AllTexts params.keys) {s : String} (hs : declared.lookup (.str s) = none) :
    (m.move params).1.contains (.str s) = true ↔
      params.contains (.str s) = true ∧ ∀ e ∈ declared, Value.str s ∉ e.2.aliases := by
  unfold Entries.contains
  by_cases halias : ∃ e ∈ declared, Value.str s ∈ e.2.aliases
  · have hlisted := (hm.exists_alias_iff s).2 halias
    rw [lookup_move_alias hm hd hlisted]
    obtain ⟨e, he, hmem⟩ := halias
    refine iff_of_false ?_ fun h => h.2 e he hmem
    split
    · next hstays =>
      -- An alias that stays has no parameter.
      obtain ⟨l, hl, ⟨a, ha, hkey⟩, hnone⟩ := hstays
      obtain rfl := Value.eq_str_of_key? hkey
      exact fun hpresent => lastPresent?_ne_none hparams ha hpresent hnone
    · simp
  · have hother : ∀ e ∈ m.fields, ∀ a ∈ e.2, a.key? ≠ (Value.str s).key? :=
      fun e he a ha hkey => halias ((hm.exists_alias_iff s).1 ⟨e, he, a, ha, hkey⟩)
    have hsource : source? m.fields params (.str s) = none := by
      unfold source?
      cases hnames : m.fields.lookup (.str s) with
      | none => rfl
      | some names =>
        -- The alias map has names of declared fields only.
        obtain ⟨l, hl, hkey⟩ := Entries.exists_mem_of_lookup hnames
        have hdeclared := hm.mem_keys (List.mem_map_of_mem hl)
        obtain ⟨e, he, hle⟩ := List.mem_map.1 hdeclared
        refine absurd ?_ (Entries.lookup_eq_none_iff.1 hs e he)
        rw [hle]
        exact hkey
    rw [(lookup_move_other hm hd hother params).1, hsource, Option.getD_none]
    exact ⟨fun h => ⟨h, fun e he hmem => halias ⟨e, he, hmem⟩⟩, And.left⟩

end AliasMap

namespace Validator

/-- What a run can be asked for: names with or without signs, or a mapping of the names of parameters
to such names. -/
inductive Request where
  | names (targets : List String)
  | mapping (entries : List (String × String))

/-- The targets of a request. -/
def Request.targets : Request → List Value
  | names targets => targets.map .str
  | mapping entries => [.dict (entries.map fun (key, target) => (.str key, .str target))]

/-- Texts can be used as names. -/
theorem namesOf_returns {vs : List Value} (h : Value.AllTexts vs) : ∃ names, namesOf vs = .ok names := by
  induction vs with
  | nil => exact ⟨[], rfl⟩
  | cons v rest ih =>
    obtain ⟨⟨s, rfl⟩, hrest⟩ := List.forall_mem_cons.1 h
    obtain ⟨names, hnames⟩ := ih hrest
    refine ⟨s :: names, ?_⟩
    rw [namesOf, hnames]
    rfl

variable {α : Type}

/-- Names can be moved to names. -/
theorem rename_returns (entries : List (String × String)) :
    ∀ {params : Entries α} (sources : Entries Value), Value.AllTexts params.keys →
      ∃ r, rename (entries.map fun (key, target) => (Value.str key, Value.str target)) params sources =
        .ok r ∧ Value.AllTexts r.1.keys := by
  induction entries with
  | nil => exact fun sources h => ⟨_, rfl, h⟩
  | cons e rest ih =>
    intro params sources h
    obtain ⟨key, target⟩ := e
    rw [List.map_cons, rename]
    cases params.lookup (.str key) with
    | none =>
      obtain ⟨r, hr, htexts⟩ := ih sources h
      exact ⟨_, map_eq_ok_iff.2 ⟨r, hr, rfl⟩, htexts⟩
    | some v =>
      have hmoved := Entries.allTexts_insert (Entries.allTexts_erase h (.str key))
        (Toggle.parse target).1 v
      obtain ⟨r, hr, htexts⟩ :=
        ih (sources.insert (.str (Toggle.parse target).1) (.str key)) hmoved
      exact ⟨_, map_eq_ok_iff.2 ⟨r, hr, rfl⟩, htexts⟩

/-- What a request asks for can be made out. -/
theorem request_returns (q : Request) {params : Entries α} (h : Value.AllTexts params.keys) :
    ∃ r, request q.targets params = .ok r ∧ Value.AllTexts r.1.keys := by
  cases q with
  | names ts => exact ⟨_, request_map ts params, h⟩
  | mapping entries => exact rename_returns entries [] h

/-- If parameters and fields stand under names, a run can be planned. -/
theorem plan_returns {v : Validator} (hv : AliasMap.Fits v.fields v.aliases)
    (hnames : Value.AllTexts v.fields.keys) {queue : List String}
    (hqueue : v.queue = queue.map .str) (q : Request) {run : Run}
    (hparams : Value.AllTexts run.params.keys) :
    ∃ plan run', Returns (v.plan q.targets) run plan run' := by
  have htagged : Value.AllTexts (tagged run.params).keys := by
    unfold tagged Entries.keys
    rw [List.map_map]
    exact hparams
  obtain ⟨⟨params, sources, requested⟩, hrequest, htexts⟩ := request_returns q htagged
  obtain ⟨hmoved, hmoved'⟩ := AliasMap.allTexts_move hv hnames htexts
  obtain ⟨parsed, hparsed, hparsedTexts⟩ : ∃ parsed,
      (requested.map Value.str ++ v.queue).mapM Toggle.ofValue = .ok parsed ∧
        Value.AllTexts (parsed.map (·.1)) := by
    rw [hqueue, ← List.map_append]
    refine ⟨_, mapM_ofValue_map _, fun k hk => ?_⟩
    rw [signed, List.map_map] at hk
    obtain ⟨t, -, rfl⟩ := List.mem_map.1 hk
    exact ⟨_, rfl⟩
  -- Whatever the names are taken from, they are texts.
  obtain ⟨selected, hselected⟩ : ∃ names, namesOf (
      if !(parsed.map (·.1)).isEmpty then
        Value.unique (parsed.map (·.1) ++ (v.aliases.move params).2.keys)
      else if !(v.aliases.move params).1.isEmpty then (v.aliases.move params).1.keys
      else v.fields.keys) = .ok names := by
    refine namesOf_returns ?_
    split
    · intro k hk
      rcases List.mem_append.1 (Value.mem_of_mem_unique hk) with hk | hk
      · exact hparsedTexts k hk
      · exact hmoved' k hk
    · split
      · exact hmoved
      · exact hnames
  rw [Validator.plan]
  simp only [Returns.bind_iff, Returns.get_iff, Returns.liftM_iff, Returns.mapM_liftM_iff,
    Returns.modify_iff, Returns.pure_iff]
  exact ⟨_, _, _, _, ⟨rfl, rfl⟩, _, _, ⟨hrequest, rfl⟩, parsed, _, ⟨hparsed, rfl⟩, (), _, rfl,
    selected, _, ⟨hselected, rfl⟩, (), _, rfl, rfl, rfl⟩

/-- A run without targets and queue selects an undeclared name exactly when some parameter is neither
that of a field nor that of an alias. -/
theorem exists_undeclared_iff {v : Validator} (hv : AliasMap.Fits v.fields v.aliases)
    (hfields : v.fields.Distinct) (hqueue : v.queue = []) {run run' : Run} {plan : Plan}
    (hparams : Value.AllTexts run.params.keys) (h : Returns (v.plan []) run plan run') :
    (∃ name ∈ plan.selected, v.fields.lookup (.str name) = none) ↔
      ∃ k ∈ run.params.keys, v.fields.lookup k = none ∧ ∀ e ∈ v.fields, k ∉ e.2.aliases := by
  obtain ⟨params, sources, requested, parsed, hplan⟩ := plan_eq h
  have hrequest := hplan.requested_eq
  have hparsed := hplan.parsed_eq
  obtain ⟨rfl, rfl, rfl⟩ : tagged run.params = params ∧ [] = sources ∧ [] = requested := by
    have heq := Except.ok.inj ((request_map [] (tagged run.params)).symm.trans hrequest)
    exact ⟨congrArg Prod.fst heq, congrArg (·.2.1) heq, congrArg (·.2.2) heq⟩
  rw [hqueue] at hparsed
  obtain rfl : [] = parsed := Except.ok.inj hparsed
  have hselected := hplan.selected_eq
  rw [List.map_nil, List.isEmpty_nil, Bool.not_true, if_neg Bool.false_ne_true] at hselected
  have hkeys : (tagged run.params).keys = run.params.keys := by
    unfold tagged Entries.keys
    rw [List.map_map]
    rfl
  have htexts : Value.AllTexts (tagged run.params).keys := hkeys ▸ hparams
  have hmoved : ∀ s : String, v.fields.lookup (.str s) = none →
      (Value.str s ∈ (v.aliases.move (tagged run.params)).1.keys ↔
        Value.str s ∈ run.params.keys ∧ ∀ e ∈ v.fields, Value.str s ∉ e.2.aliases) := by
    intro s hs
    rw [← Entries.contains_str_iff, AliasMap.contains_move_iff hv hfields htexts hs,
      Entries.contains_str_iff, hkeys]
  constructor
  · rintro ⟨name, hname, hnone⟩
    have hmem : Value.str name ∈ plan.selected.map Value.str := List.mem_map_of_mem hname
    rw [← hselected] at hmem
    split at hmem
    · obtain ⟨hk, halias⟩ := (hmoved name hnone).1 hmem
      exact ⟨.str name, hk, hnone, halias⟩
    · -- Fields are declared.
      obtain ⟨f, hf⟩ := Entries.exists_lookup_of_mem_keys hmem
      rw [hf] at hnone
      cases hnone
  · rintro ⟨k, hk, hnone, halias⟩
    obtain ⟨s, rfl⟩ := hparams k hk
    have hmem := (hmoved s hnone).2 ⟨hk, halias⟩
    have hsome : (!(v.aliases.move (tagged run.params)).1.isEmpty) = true := by
      obtain ⟨e, he, -⟩ := List.mem_map.1 hmem
      simpa using List.ne_nil_of_mem he
    rw [if_pos hsome] at hselected
    rw [hselected] at hmem
    obtain ⟨name, hname, heq⟩ := List.mem_map.1 hmem
    obtain rfl := Value.str.inj heq
    exact ⟨name, hname, hnone⟩

end Validator

end ParamCheck
