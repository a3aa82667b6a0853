import Mathlib.Data.List.Pairwise
import ParamCheck.Alias
import ParamCheck.Proofs.Entries

/-!
# Where aliased parameters go

In the alias map of declared fields no alias is the name of a field, and no two fields share one
(`AliasMap.Fits`, `AliasMap.build_fits`). So different fields are supplied by different keys
(`AliasMap.supplier_ne`), a move does not disturb another, and afterwards each field has the parameter
of the key that supplies it (`AliasMap.lookup_move`).
-/

namespace ParamCheck.AliasMap

/-- The aliases of each field that has any. -/
def listed (declared : Entries Field) : Entries (List Value) :=
  (declared.mapValues fun f => Value.unique f.aliases).filter fun e => !e.2.isEmpty

/-- No alias in the list is the name of a field. -/
def Outside (declared : Entries Field) (es : Entries (List Value)) : Prop :=
  ∀ e ∈ es, ∀ a ∈ e.2, declared.lookup a = none

/-- No two fields of the list share an alias. -/
def Unshared (es : Entries (List Value)) : Prop :=
  es.Pairwise fun e f => ∀ a ∈ e.2, ∀ b ∈ f.2, a.key? ≠ b.key?

/-- The alias map belongs to the declared fields. -/
structure Fits (declared : Entries Field) (m : AliasMap) : Prop where
  fields_eq : m.fields = listed declared
  outside : Outside declared m.fields
  unshared : Unshared m.fields

/-! ## Building -/

/-- Aliases that can be added are new and are not the names of fields. -/
theorem addAliases_ok {declared : Entries Field} {name : Value} {names : List Value}
    {known known' : Entries Value} (h : addAliases declared name names known = .ok known') :
    (∀ a ∈ names, known.lookup a = none ∧ declared.lookup a = none ∧ known'.lookup a ≠ none) ∧
      ∀ k, known.lookup k ≠ none → known'.lookup k ≠ none := by
  induction names generalizing known with
  | nil =>
    obtain rfl := Except.ok.inj h
    exact ⟨fun a ha => absurd ha List.not_mem_nil, fun k hk => hk⟩
  | cons a rest ih =>
    rw [addAliases] at h
    split at h
    · cases h
    · split at h
      · cases h
      · next hnew =>
        split at h
        · cases h
        · next hfield =>
          obtain ⟨hrest, hkeep⟩ := ih h
          have hfield : declared.lookup a = none := by
            simpa [Entries.contains] using hfield
          have hset : (known.insert a name).lookup a ≠ none := by
            rw [Entries.lookup_insert, if_pos rfl]
            simp
          have hgrow : ∀ k, known.lookup k ≠ none → (known.insert a name).lookup k ≠ none := by
            intro k hk
            rw [Entries.lookup_insert]
            split
            · simp
            · exact hk
          refine ⟨fun b hb => ?_, fun k hk => hkeep k (hgrow k hk)⟩
          rcases List.mem_cons.1 hb with rfl | hb
          · exact ⟨hnew, hfield, hkeep b hset⟩
          · obtain ⟨hb₁, hb₂, hb₃⟩ := hrest b hb
            -- An alias that is new once the first one has been added was new before.
            refine ⟨?_, hb₂, hb₃⟩
            by_contra hne
            exact hgrow b hne hb₁

/-- What has been collected so far of the aliases of declared fields. -/
structure Collected (declared : Entries Field) (m : AliasMap) : Prop where
  outside : Outside declared m.fields
  unshared : Unshared m.fields
  known : ∀ e ∈ m.fields, ∀ a ∈ e.2, m.aliases.lookup a ≠ none

/-- The aliases of one field. -/
def own (name : Value) (f : Field) : Entries (List Value) :=
  if (Value.unique f.aliases).isEmpty then [] else [(name, Value.unique f.aliases)]

/-- The aliases of the first field come first. -/
theorem listed_cons (name : Value) (f : Field) (rest : Entries Field) :
    listed ((name, f) :: rest) = own name f ++ listed rest := by
  unfold own
  show List.filter _ ((name, Value.unique f.aliases) :: _) = _
  rw [List.filter_cons]
  cases (Value.unique f.aliases).isEmpty <;> rfl

/-- A field has at most one list of aliases. -/
theorem eq_of_mem_own {name : Value} {f : Field} {e : Value × List Value} (h : e ∈ own name f) :
    e = (name, Value.unique f.aliases) := by
  unfold own at h
  split at h
  · cases h
  · exact List.mem_singleton.1 h

/-- The aliases of a new field can be collected if they can be added. -/
theorem Collected.append {declared : Entries Field} {m : AliasMap} (hm : Collected declared m)
    {name : Value} {f : Field} {known : Entries Value}
    (h : addAliases declared name (Value.unique f.aliases) m.aliases = .ok known) :
    Collected declared { fields := m.fields ++ own name f, aliases := known } := by
  obtain ⟨hadded, hkeep⟩ := addAliases_ok h
  refine ⟨fun e he a ha => ?_, ?_, fun e he a ha => ?_⟩
  · rcases List.mem_append.1 he with he | he
    · exact hm.outside e he a ha
    · rw [eq_of_mem_own he] at ha
      exact (hadded a ha).2.1
  · refine List.pairwise_append.2 ⟨hm.unshared, ?_, fun e he g hg a ha b hb hkey => ?_⟩
    · unfold own
      split
      · exact List.Pairwise.nil
      · exact List.pairwise_singleton _ _
    · -- An alias of another field is known, but those that are added are new.
      rw [eq_of_mem_own hg] at hb
      exact hm.known e he a ha ((Entries.lookup_congr hkey _).trans (hadded b hb).1)
  · rcases List.mem_append.1 he with he | he
    · exact hkeep a (hm.known e he a ha)
    · rw [eq_of_mem_own he] at ha
      exact (hadded a ha).2.2

/-- The aliases of the fields of a list come after those that were there. -/
theorem addFields_ok {declared es : Entries Field} {m m' : AliasMap} (hes : es.Distinct)
    (hnew : ∀ e ∈ es, m.fields.lookup e.1 = none) (hm : Collected declared m)
    (h : addFields declared es m = .ok m') :
    m'.fields = m.fields ++ listed es ∧ Collected declared m' := by
  induction es generalizing m with
  | nil =>
    obtain rfl := Except.ok.inj h
    exact ⟨(List.append_nil _).symm, hm⟩
  | cons e rest ih =>
    obtain ⟨name, f⟩ := e
    obtain ⟨hname, hrest⟩ := List.pairwise_cons.1 hes
    rw [addFields] at h
    cases hadd : addAliases declared name (Value.unique f.aliases) m.aliases with
    | error e =>
      rw [hadd] at h
      cases h
    | ok known =>
      rw [hadd] at h
      -- The aliases of this field, if it has any, are put at the end.
      have hput : (if (Value.unique f.aliases).isEmpty then m.fields
            else m.fields.insert name (Value.unique f.aliases)) = m.fields ++ own name f := by
        unfold own
        split
        · exact (List.append_nil _).symm
        · exact Entries.insert_of_absent (hnew (name, f) List.mem_cons_self) _
      have hlater : ∀ e ∈ rest, Entries.lookup (m.fields ++ own name f) e.1 = none := by
        intro e he
        rw [Entries.lookup_append, hnew e (List.mem_cons_of_mem _ he), Option.none_or,
          Entries.lookup_eq_none_iff]
        intro g hg
        rw [eq_of_mem_own hg]
        exact hname e he
      rw [listed_cons, ← List.append_assoc]
      refine ih hrest hlater (hm.append hadd) ?_
      rw [← hput]
      exact h

/-- The alias map that is built of declared fields belongs to them. -/
theorem build_fits {declared : Entries Field} {m : AliasMap} (hd : declared.Distinct)
    (h : build declared = .ok m) : Fits declared m := by
  have hnone : Collected declared {} :=
    ⟨fun e he => absurd he List.not_mem_nil, List.Pairwise.nil,
      fun e he => absurd he List.not_mem_nil⟩
  obtain ⟨hfields, hm⟩ := addFields_ok hd (fun _ _ => rfl) hnone h
  exact ⟨hfields, hm.outside, hm.unshared⟩

/-! ## Moving -/

variable {α : Type}

/-- A name that is found to be present is one of the list and has a parameter. -/
theorem lastPresent?_eq_some {params : Entries α} {names : List Value} {s : Value}
    (h : lastPresent? params names = some s) : s ∈ names ∧ ∃ v, params.lookup s = some v := by
  have hfind : names.reverse.find? params.contains = some s := by
    unfold lastPresent? at h
    split at h
    · cases h
    · exact h
  have hmem := List.mem_of_find?_eq_some hfind
  have hpresent := List.find?_some hfind
  exact ⟨List.mem_reverse.1 hmem, Option.isSome_iff_exists.1 hpresent⟩

/-- Which name is found depends on which ones are present. -/
theorem lastPresent?_congr {β : Type} {params : Entries α} {params' : Entries β}
    {names : List Value} (h : ∀ a ∈ names, params.contains a = params'.contains a) :
    lastPresent? params names = lastPresent? params' names := by
  have hfind : names.reverse.find? params.contains = names.reverse.find? params'.contains := by
    have hrev : ∀ a ∈ names.reverse, params.contains a = params'.contains a :=
      fun a ha => h a (List.mem_reverse.1 ha)
    generalize names.reverse = l at hrev
    induction l with
    | nil => rfl
    | cons a rest ih =>
      rw [List.find?_cons, List.find?_cons, hrev a List.mem_cons_self,
        ih fun b hb => hrev b (List.mem_cons_of_mem _ hb)]
  unfold lastPresent?
  rw [hfind]

/-- Dropping names leaves the parameters of the others. -/
theorem lookup_foldl_erase {names : List Value} {k : Value} (h : ∀ a ∈ names, a.key? ≠ k.key?) :
    ∀ params : Entries α, (names.foldl Entries.erase params).lookup k = params.lookup k := by
  induction names with
  | nil => exact fun _ => rfl
  | cons a rest ih =>
    intro params
    rw [List.foldl_cons, ih fun b hb => h b (List.mem_cons_of_mem _ hb), Entries.lookup_erase,
      if_neg (h a List.mem_cons_self)]

/-- Each key stands once after names are dropped. -/
theorem distinct_foldl_erase (names : List Value) :
    ∀ params : Entries α, params.Distinct → (names.foldl Entries.erase params).Distinct := by
  induction names with
  | nil => exact fun _ h => h
  | cons a rest ih => exact fun params h => ih _ (h.erase a)

/-- The alias that supplies a field, if one is present. -/
def source? (es : Entries (List Value)) (params : Entries α) (field : Value) : Option Value :=
  (es.lookup field).bind (lastPresent? params)

/-- After the move of one field, it has the parameter of the alias that supplies it. Names other
than its aliases keep theirs. -/
theorem lookup_moveField (name : Value) {names : List Value} (params : Entries α)
    (moved : Entries Value) {k : Value} (hk : ∀ a ∈ names, a.key? ≠ k.key?) :
    (moveField name names params moved).1.lookup k =
      (match lastPresent? params names with
        | some s => if name.key? = k.key? then params.lookup s else params.lookup k
        | none => params.lookup k) ∧
    (moveField name names params moved).2.lookup k =
      (match lastPresent? params names with
        | some s => if name.key? = k.key? then some s else moved.lookup k
        | none => moved.lookup k) := by
  unfold moveField
  cases hs : lastPresent? params names with
  | none => exact ⟨rfl, rfl⟩
  | some s =>
    obtain ⟨-, v, hv⟩ := lastPresent?_eq_some hs
    dsimp only
    rw [hv]
    dsimp only
    rw [Entries.lookup_insert, Entries.lookup_insert, lookup_foldl_erase hk]
    exact ⟨rfl, rfl⟩

/-- Each key stands once after the move of one field. -/
theorem distinct_moveField (name : Value) (names : List Value) {params : Entries α}
    {moved : Entries Value} (h : params.Distinct) (hmoved : moved.Distinct) :
    (moveField name names params moved).1.Distinct ∧
      (moveField name names params moved).2.Distinct := by
  unfold moveField
  split
  · exact ⟨h, hmoved⟩
  · split
    · exact ⟨h, hmoved⟩
    · exact ⟨(distinct_foldl_erase names params h).insert _ _, hmoved.insert _ _⟩

/-- The first field of a list is supplied by its own aliases. -/
theorem source?_cons_self {name k : Value} (h : name.key? = k.key?) (names : List Value)
    (rest : Entries (List Value)) (params : Entries α) :
    source? ((name, names) :: rest) params k = lastPresent? params names := by
  unfold source?
  rw [Entries.lookup, if_pos h, Option.bind_some]

/-- Other fields of a list are supplied as if the first one were not there. -/
theorem source?_cons_of_ne {name k : Value} (h : name.key? ≠ k.key?) (names : List Value)
    (rest : Entries (List Value)) (params : Entries α) :
    source? ((name, names) :: rest) params k = source? rest params k := by
  unfold source?
  rw [Entries.lookup, if_neg h]

/-- A field is supplied by one of its aliases. -/
theorem mem_of_source? {es : Entries (List Value)} {params : Entries α} {k s : Value}
    (h : source? es params k = some s) : ∃ e ∈ es, s ∈ e.2 := by
  unfold source? at h
  obtain ⟨names, hk, hpresent⟩ := Option.bind_eq_some_iff.1 h
  obtain ⟨l, hl, -⟩ := Entries.exists_mem_of_lookup hk
  exact ⟨_, hl, (lastPresent?_eq_some hpresent).1⟩

/-- Which alias supplies a field depends on which aliases of the fields are present. -/
theorem source?_congr {es : Entries (List Value)} {params params' : Entries α}
    (h : ∀ e ∈ es, ∀ a ∈ e.2, params.lookup a = params'.lookup a) (k : Value) :
    source? es params k = source? es params' k := by
  unfold source?
  cases hk : es.lookup k with
  | none => rfl
  | some names =>
    obtain ⟨l, hl, -⟩ := Entries.exists_mem_of_lookup hk
    refine lastPresent?_congr fun a ha => ?_
    unfold Entries.contains
    rw [h _ hl a ha]

/-- The fields of a list stand under different names, which are no aliases, and share no alias. -/
structure Apart (es : Entries (List Value)) : Prop where
  distinct : es.Distinct
  unshared : Unshared es
  ne_name : ∀ e ∈ es, ∀ e' ∈ es, ∀ a ∈ e'.2, a.key? ≠ e.1.key?

/-- Fields stay apart when the first one is left out. -/
theorem Apart.tail {e : Value × List Value} {rest : Entries (List Value)} (h : Apart (e :: rest)) :
    Apart rest where
  distinct := (List.pairwise_cons.1 h.distinct).2
  unshared := (List.pairwise_cons.1 h.unshared).2
  ne_name e he e' he' :=
    h.ne_name e (List.mem_cons_of_mem _ he) e' (List.mem_cons_of_mem _ he')

/-- After the move of the first field, the aliases of the others are where they were. -/
theorem Apart.lookup_moveField {name : Value} {names : List Value} {rest : Entries (List Value)}
    (h : Apart ((name, names) :: rest)) (params : Entries α) (moved : Entries Value)
    {e : Value × List Value} (he : e ∈ rest) {a : Value} (ha : a ∈ e.2) :
    (moveField name names params moved).1.lookup a = params.lookup a := by
  have hnames : ∀ b ∈ names, b.key? ≠ a.key? :=
    fun b hb => (List.pairwise_cons.1 h.unshared).1 e he b hb a ha
  have hname : a.key? ≠ name.key? :=
    h.ne_name _ List.mem_cons_self e (List.mem_cons_of_mem _ he) a ha
  rw [(AliasMap.lookup_moveField name params moved hnames).1]
  -- The move sets the name of the field only, and no alias is a name.
  split
  · rw [if_neg hname.symm]
  · rfl

/-- The first field of a list is none of the others. -/
theorem Apart.source?_eq_none {name k : Value} {names : List Value} {rest : Entries (List Value)}
    (h : Apart ((name, names) :: rest)) (hk : name.key? = k.key?) (params : Entries α) :
    source? rest params k = none := by
  unfold source?
  rw [← Entries.lookup_congr hk, Entries.lookup_eq_none_iff.2 fun e he =>
    ((List.pairwise_cons.1 h.distinct).1 e he).symm, Option.bind_none]

/-- After the moves of a list of fields, each of them has the parameter of the alias that supplies
it, and other names that are no aliases keep theirs. -/
theorem lookup_foldl_moveField {es : Entries (List Value)} (hes : Apart es)
    {k : Value} (hk : ∀ e ∈ es, ∀ a ∈ e.2, a.key? ≠ k.key?) :
    ∀ (params : Entries α) (moved : Entries Value),
      let after := es.foldl (fun p e => moveField e.1 e.2 p.1 p.2) (params, moved)
      after.1.lookup k = params.lookup ((source? es params k).getD k) ∧
        after.2.lookup k = (source? es params k).or (moved.lookup k) := by
  induction es with
  | nil => exact fun params moved => ⟨rfl, rfl⟩
  | cons e rest ih =>
    obtain ⟨name, names⟩ := e
    intro params moved
    obtain ⟨hparams, hmoved⟩ := lookup_moveField name params moved (hk _ List.mem_cons_self)
    obtain ⟨hafter, hafter'⟩ := ih hes.tail (fun e he => hk e (List.mem_cons_of_mem _ he))
      (moveField name names params moved).1 (moveField name names params moved).2
    have hothers : ∀ e ∈ rest, ∀ a ∈ e.2,
        (moveField name names params moved).1.lookup a = params.lookup a :=
      fun e he a ha => hes.lookup_moveField params moved he ha
    dsimp only at hafter hafter' ⊢
    rw [List.foldl_cons]
    dsimp only
    rw [hafter, hafter', source?_congr hothers, hmoved]
    by_cases hkey : name.key? = k.key?
    · -- The name of the field that has been moved is not that of another one.
      rw [hes.source?_eq_none hkey, source?_cons_self hkey, Option.getD_none, Option.none_or,
        hparams]
      cases lastPresent? params names with
      | none => exact ⟨rfl, rfl⟩
      | some s => simp [hkey]
    · rw [source?_cons_of_ne hkey]
      cases hs : source? rest params k with
      | none =>
        rw [Option.getD_none, Option.none_or, Option.none_or, hparams]
        cases lastPresent? params names <;> simp [hkey]
      | some s =>
        obtain ⟨e, he, hsource⟩ := mem_of_source? hs
        exact ⟨hothers e he s hsource, rfl⟩

/-- A field is supplied by the aliases that are listed for it, if any. -/
theorem source?_eq (es : Entries (List Value)) (params : Entries α) (k : Value) :
    source? es params k = lastPresent? params ((es.lookup k).getD []) := by
  unfold source?
  cases es.lookup k <;> rfl

/-- The aliases of a declared field are found at its name. -/
theorem lookup_listed {declared : Entries Field} (hd : declared.Distinct) {k : Value} {f : Field}
    (hk : declared.lookup k = some f) :
    ((listed declared).lookup k).getD [] = Value.unique f.aliases := by
  induction declared with
  | nil => simp at hk
  | cons e rest ih =>
    obtain ⟨l, g⟩ := e
    obtain ⟨hl, hrest⟩ := List.pairwise_cons.1 hd
    rw [Entries.lookup] at hk
    rw [listed_cons, own, Entries.lookup_append]
    by_cases hkey : l.key? = k.key?
    · rw [if_pos hkey] at hk
      obtain rfl := Option.some.inj hk
      split
      · next hempty =>
        -- A field without aliases is not listed, and no later field has its name.
        have hnil : Value.unique g.aliases = [] := by simpa using hempty
        have hnone : Entries.lookup (listed rest) k = none := by
          rw [Entries.lookup_eq_none_iff]
          intro e he
          obtain ⟨e', he', rfl⟩ := List.mem_map.1 (List.mem_filter.1 he).1
          exact fun h => hl e' he' (hkey.trans h.symm)
        rw [hnil, hnone]
        rfl
      · rw [Entries.lookup, if_pos hkey]
        rfl
    · rw [if_neg hkey] at hk
      split
      · exact ih hrest hk
      · rw [Entries.lookup, if_neg hkey]
        exact ih hrest hk

/-- A declared field is supplied by its aliases. -/
theorem source?_listed {declared : Entries Field} (hd : declared.Distinct) {k : Value} {f : Field}
    (hk : declared.lookup k = some f) (params : Entries α) :
    source? (listed declared) params k = lastPresent? params (Value.unique f.aliases) := by
  rw [source?_eq, lookup_listed hd hk]

/-- A field that has an alias is in the alias map with all of them. -/
theorem Fits.mem_fields {declared : Entries Field} {m : AliasMap} (hm : Fits declared m)
    {e : Value × Field} (he : e ∈ declared) {a : Value} (ha : a ∈ Value.unique e.2.aliases) :
    (e.1, Value.unique e.2.aliases) ∈ m.fields := by
  rw [hm.fields_eq]
  refine List.mem_filter.2 ⟨List.mem_map_of_mem he, ?_⟩
  simpa using List.ne_nil_of_mem ha

/-- A field of the alias map is declared with the aliases that it has there. -/
theorem Fits.exists_declared {declared : Entries Field} {m : AliasMap} (hm : Fits declared m)
    {e : Value × List Value} (he : e ∈ m.fields) :
    ∃ f, (e.1, f) ∈ declared ∧ e.2 = Value.unique f.aliases := by
  rw [hm.fields_eq] at he
  obtain ⟨d, hd, rfl⟩ := List.mem_map.1 (List.mem_filter.1 he).1
  exact ⟨d.2, hd, rfl⟩

/-- The key that supplies a field: of its aliases, each counted where it comes first, the last one
that is present, or else the name of the field. -/
def supplier (params : Entries α) (name : Value) (f : Field) : Value :=
  (lastPresent? params (Value.unique f.aliases)).getD name

/-- A key that supplies a field is its name or one of its aliases in the alias map. -/
theorem supplier_cases {declared : Entries Field} {m : AliasMap} (hm : Fits declared m)
    {name : Value} {f : Field} (hf : declared.lookup name = some f) (params : Entries α) :
    supplier params name f = name ∨
      ∃ e ∈ m.fields, e.1.key? = name.key? ∧ supplier params name f ∈ e.2 := by
  unfold supplier
  cases hs : lastPresent? params (Value.unique f.aliases) with
  | none => exact .inl rfl
  | some s =>
    right
    obtain ⟨hmem, -⟩ := lastPresent?_eq_some hs
    obtain ⟨l, hl, hkey⟩ := Entries.exists_mem_of_lookup hf
    exact ⟨_, hm.mem_fields hl hmem, hkey, hmem⟩

/-- A field can have the name of a key that supplies another one only if it is that field. -/
theorem supplier_of_declared {declared : Entries Field} {m : AliasMap} (hm : Fits declared m)
    {name k : Value} {f g : Field} (hf : declared.lookup name = some f)
    (hg : declared.lookup k = some g) (params : Entries α)
    (h : (supplier params name f).key? = k.key?) : supplier params name f = name := by
  rcases supplier_cases hm hf params with hname | ⟨e, he, -, hmem⟩
  · exact hname
  · have hnone := hm.outside e he _ hmem
    rw [Entries.lookup_congr h, hg] at hnone
    cases hnone

/-- Different fields are supplied by different keys. -/
theorem supplier_ne {declared : Entries Field} {m : AliasMap} (hm : Fits declared m)
    {name name' : Value} {f g : Field} (hf : declared.lookup name = some f)
    (hg : declared.lookup name' = some g) (hne : name.key? ≠ name'.key?) (params : Entries α) :
    (supplier params name f).key? ≠ (supplier params name' g).key? := by
  intro hkey
  rcases supplier_cases hm hf params with hname | ⟨e, he, hkeyE, hmemE⟩
  · -- The other field would be supplied by an alias that is the name of a field.
    have hname' := supplier_of_declared hm hg hf params (by rw [← hkey, hname])
    rw [hname, hname'] at hkey
    exact hne hkey
  · rcases supplier_cases hm hg params with hname' | ⟨e', he', hkeyE', hmemE'⟩
    · have hname := supplier_of_declared hm hf hg params (by rw [hkey, hname'])
      rw [hname, hname'] at hkey
      exact hne hkey
    · have hdifferent : e ≠ e' := by
        rintro rfl
        exact hne (hkeyE.symm.trans hkeyE')
      -- Two aliases of one key would be shared by two fields.
      have hsymm : Std.Symm fun e f : Value × List Value =>
          ∀ a ∈ e.2, ∀ b ∈ f.2, a.key? ≠ b.key? := ⟨fun _ _ h a ha b hb => (h b hb a ha).symm⟩
      exact List.Pairwise.forall hm.unshared he he' hdifferent _ hmemE _ hmemE' hkey

/-- What is not declared has no aliases in the alias map. -/
theorem Fits.lookup_fields_eq_none {declared : Entries Field} {m : AliasMap} (hm : Fits declared m)
    {k : Value} (hk : declared.lookup k = none) : m.fields.lookup k = none := by
  rw [Entries.lookup_eq_none_iff] at hk ⊢
  intro e he
  obtain ⟨f, hf, -⟩ := hm.exists_declared he
  exact hk _ hf

/-- The fields of the alias map of declared fields are apart. -/
theorem Fits.apart {declared : Entries Field} {m : AliasMap} (hm : Fits declared m)
    (hd : declared.Distinct) : Apart m.fields where
  distinct := by
    rw [hm.fields_eq]
    exact List.Pairwise.filter _ (hd.of_keys (Entries.keys_mapValues _ _))
  unshared := hm.unshared
  ne_name e he e' he' a ha hkey := by
    -- The field of that name is declared.
    obtain ⟨g, hg, -⟩ := hm.exists_declared he
    exact Entries.lookup_eq_none_iff.1 (hm.outside e' he' a ha) _ hg hkey.symm

/-- The name of a declared field is no alias. -/
theorem Fits.ne_alias {declared : Entries Field} {m : AliasMap} (hm : Fits declared m) {k : Value}
    {f : Field} (hk : declared.lookup k = some f) : ∀ e ∈ m.fields, ∀ a ∈ e.2, a.key? ≠ k.key? := by
  intro e he a ha hkey
  have hnone := hm.outside e he a ha
  rw [Entries.lookup_congr hkey, hk] at hnone
  cases hnone

/-- After a move a name that is no alias has the parameter of the alias that supplies it, or else its
own. -/
theorem lookup_move_other {declared : Entries Field} {m : AliasMap} (hm : Fits declared m)
    (hd : declared.Distinct) {k : Value} (hk : ∀ e ∈ m.fields, ∀ a ∈ e.2, a.key? ≠ k.key?)
    (params : Entries α) :
    (m.move params).1.lookup k = params.lookup ((source? m.fields params k).getD k) ∧
      (m.move params).2.lookup k = source? m.fields params k := by
  obtain ⟨hparams, hmoved⟩ := lookup_foldl_moveField (hm.apart hd) hk params []
  rw [Entries.lookup_nil, Option.or_none] at hmoved
  exact ⟨hparams, hmoved⟩

/-- After a move a declared field has the parameter of the key that supplies it. -/
theorem lookup_move {declared : Entries Field} {m : AliasMap} (hm : Fits declared m)
    (hd : declared.Distinct) {k : Value} {f : Field} (hk : declared.lookup k = some f)
    (params : Entries α) :
    (m.move params).1.lookup k = params.lookup (supplier params k f) ∧
      ((m.move params).2.lookup k).getD k = supplier params k f := by
  obtain ⟨hparams, hmoved⟩ := lookup_move_other hm hd (hm.ne_alias hk) params
  rw [hm.fields_eq, source?_listed hd hk] at hparams hmoved
  exact ⟨hparams, congrArg (Option.getD · k) hmoved⟩

/-- Each key stands once after a move, among the parameters and among the fields that were moved. -/
theorem distinct_move (m : AliasMap) {params : Entries α} (h : params.Distinct) :
    (m.move params).1.Distinct ∧ (m.move params).2.Distinct := by
  have hfold : ∀ (es : Entries (List Value)) (p : Entries α × Entries Value),
      p.1.Distinct → p.2.Distinct →
        (es.foldl (fun p e => moveField e.1 e.2 p.1 p.2) p).1.Distinct ∧
          (es.foldl (fun p e => moveField e.1 e.2 p.1 p.2) p).2.Distinct := by
    intro es
    induction es with
    | nil => exact fun p hp hp' => ⟨hp, hp'⟩
    | cons e rest ih =>
      intro p hp hp'
      obtain ⟨hparams, hmoved⟩ := distinct_moveField e.1 e.2 hp hp'
      exact ih _ hparams hmoved
  exact hfold m.fields (params, []) h List.Pairwise.nil

/-- What holds of every parameter still does after the move of one field. -/
theorem forall_moveField {P : α → Prop} (name : Value) (names : List Value) {params : Entries α}
    (moved : Entries Value) (h : ∀ e ∈ params, P e.2) :
    ∀ e ∈ (moveField name names params moved).1, P e.2 := by
  have herase : ∀ {params : Entries α}, (∀ e ∈ params, P e.2) →
      ∀ e ∈ names.foldl Entries.erase params, P e.2 := by
    induction names with
    | nil => exact fun h => h
    | cons a rest ih => exact fun h => ih (Entries.forall_erase h a)
  unfold moveField
  split
  · exact h
  · split
    · exact h
    · next v hv => exact Entries.forall_insert (herase h) name (Entries.forall_lookup h hv)

/-- What holds of every parameter still does after a move. -/
theorem forall_move {P : α → Prop} (m : AliasMap) {params : Entries α} (h : ∀ e ∈ params, P e.2) :
    ∀ e ∈ (m.move params).1, P e.2 := by
  have hfold : ∀ (es : Entries (List Value)) (p : Entries α × Entries Value), (∀ e ∈ p.1, P e.2) →
      ∀ e ∈ (es.foldl (fun p e => moveField e.1 e.2 p.1 p.2) p).1, P e.2 := by
    intro es
    induction es with
    | nil => exact fun _ hp => hp
    | cons e rest ih => exact fun p hp => ih _ (forall_moveField e.1 e.2 p.2 hp)
  exact hfold m.fields (params, []) h

end ParamCheck.AliasMap
