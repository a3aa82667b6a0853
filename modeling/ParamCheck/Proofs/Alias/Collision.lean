import ParamCheck.Proofs.Alias
import ParamCheck.Proofs.Returns
import ParamCheck.Proofs.Value.Sameness

/-!
# Which aliases collide

The aliases of all fields, each with the field that lists it, can be put into one mapping exactly when
none is the name of a field and none stands twice (`addFields_iff`). Since a field drops the repetitions
of its own list first, the only way to stand twice is to be listed by two fields. So the map is refused
exactly when two declarations collide, and otherwise it knows the one field of every alias
(`build_collides_iff`).
-/

namespace ParamCheck

/-- An alias of the field is found as the name is. -/
def Field.Lists (f : Field) (k : Value) : Prop := ∃ a ∈ f.aliases, a.key? = k.key?

namespace AliasMap

/-- An alias of a field is the name of a field, or another field lists it, too. -/
def Collides (declared : Entries Field) : Prop :=
  ∃ e ∈ declared, ∃ a ∈ e.2.aliases, declared.contains a = true ∨
    ∃ e' ∈ declared, e'.1.key? ≠ e.1.key? ∧ e'.2.Lists a

/-- The alias map has the aliases of the declared fields and the one field of each of them. -/
structure Resolved (declared : Entries Field) (m : AliasMap) : Prop where
  /-- No alias is the name of a field. -/
  outside : ∀ e ∈ declared, ∀ k, e.2.Lists k → declared.contains k = false
  /-- One field only lists an alias. -/
  owner_unique : ∀ e ∈ declared, ∀ e' ∈ declared, ∀ k, e.2.Lists k → e'.2.Lists k → e = e'
  /-- The field of an alias is the one that lists it. -/
  canonical_alias : ∀ e ∈ declared, ∀ k, e.2.Lists k → m.canonical k = .ok (some e.1)
  /-- A name that no field lists has no field. -/
  canonical_other : ∀ k, k.isKey = true → (∀ e ∈ declared, ¬e.2.Lists k) → m.canonical k = .ok none
  /-- A field has its aliases, each where it is first listed. -/
  names : ∀ e ∈ declared, (m.fields.lookup e.1).getD [] = Value.firsts e.2.aliases
  /-- The list that a name has repeats no alias. -/
  unrepeated : ∀ k, ((m.fields.lookup k).getD []).Pairwise fun a b => a.key? ≠ b.key?
  /-- What is no field has no aliases. -/
  names_other : ∀ k, declared.lookup k = none → m.fields.lookup k = none

/-! ## The fields of the aliases -/

/-- The aliases of a field, each with the name of the field. -/
def ownedBy (name : Value) (names : List Value) : Entries Value := names.map (·, name)

/-- The aliases of all fields, each with the name of its field. -/
def owners (es : Entries Field) : Entries Value :=
  es.flatMap fun e => ownedBy e.1 (Value.unique e.2.aliases)

/-- An alias stands among the owners with a field that lists it. -/
theorem mem_owners {es : Entries Field} {a name : Value} :
    (a, name) ∈ owners es ↔ ∃ e ∈ es, a ∈ Value.unique e.2.aliases ∧ e.1 = name := by
  unfold owners ownedBy
  simp

/-- Every name that a field lists is found among the owners. -/
theorem exists_owner {es : Entries Field} {e : Value × Field} (he : e ∈ es) {k : Value}
    (h : e.2.Lists k) : ∃ a, a.key? = k.key? ∧ (a, e.1) ∈ owners es := by
  obtain ⟨b, hb, hkey⟩ := h
  obtain ⟨a, ha, hakey⟩ := Value.exists_mem_unique hb
  exact ⟨a, hakey.trans hkey, mem_owners.2 ⟨e, he, ha, rfl⟩⟩

/-- The owners can be put behind those that are known, and this gives the ones named last. -/
structure Joins (declared : Entries Field) (known os known' : Entries Value) : Prop where
  outside : ∀ o ∈ os, declared.lookup o.1 = none
  distinct : Entries.Distinct (known ++ os)
  eq : known' = known ++ os

/-- Nothing can be put behind owners that are distinct. -/
theorem joins_nil_iff {declared : Entries Field} {known known' : Entries Value}
    (hknown : known.Distinct) : Joins declared known [] known' ↔ known' = known := by
  constructor
  · intro h
    rw [h.eq, List.append_nil]
  · rintro rfl
    refine ⟨fun o ho => absurd ho List.not_mem_nil, ?_, (List.append_nil _).symm⟩
    rwa [List.append_nil]

/-- Owners are put behind others in two goes. -/
theorem joins_append_iff {declared : Entries Field} {known os os' known' : Entries Value} :
    Joins declared known (os ++ os') known' ↔
      Joins declared known os (known ++ os) ∧ Joins declared (known ++ os) os' known' := by
  constructor
  · intro h
    have hall := h.distinct
    rw [← List.append_assoc] at hall
    refine ⟨⟨fun o ho => h.outside o (List.mem_append_left _ ho), ?_, rfl⟩,
      ⟨fun o ho => h.outside o (List.mem_append_right _ ho), hall, ?_⟩⟩
    · exact (List.pairwise_append.1 hall).1
    · rw [h.eq, List.append_assoc]
  · rintro ⟨h, h'⟩
    refine ⟨fun o ho => (List.mem_append.1 ho).elim (h.outside o) (h'.outside o), ?_, ?_⟩
    · rw [← List.append_assoc]
      exact h'.distinct
    · rw [h'.eq, List.append_assoc]

/-- One owner can be put behind others if its alias is new and is not the name of a field. -/
theorem joins_singleton_iff {declared : Entries Field} {known : Entries Value} {o : Value × Value}
    (hknown : known.Distinct) : Joins declared known [o] (known ++ [o]) ↔
      known.lookup o.1 = none ∧ declared.lookup o.1 = none := by
  have hnew : Entries.Distinct (known ++ [o]) ↔ known.lookup o.1 = none := by
    unfold Entries.Distinct
    rw [List.pairwise_append, Entries.lookup_eq_none_iff]
    exact ⟨fun h e he => h.2.2 e he o List.mem_cons_self, fun h =>
      ⟨hknown, List.pairwise_singleton _ _, fun e he o' ho' => List.mem_singleton.1 ho' ▸ h e he⟩⟩
  constructor
  · intro h
    exact ⟨hnew.1 h.distinct, h.outside o List.mem_cons_self⟩
  · rintro ⟨hlookup, hfield⟩
    refine ⟨fun o' ho' => ?_, hnew.2 hlookup, rfl⟩
    rw [List.mem_singleton.1 ho']
    exact hfield

/-! ## When the map is built -/

section

variable {declared : Entries Field}

/-- An alias that can be found is put behind those that are known if it is new and is not the name of a
field, and is refused as a collision otherwise. -/
theorem addAliases_cons (name : Value) {a : Value} (ha : a.isKey = true) (rest : List Value)
    (known : Entries Value) :
    (known.lookup a = none ∧ declared.lookup a = none) ∧
        addAliases declared name (a :: rest) known =
          addAliases declared name rest (known ++ [(a, name)]) ∨
      ¬(known.lookup a = none ∧ declared.lookup a = none) ∧
        ∃ fault, addAliases declared name (a :: rest) known = .error fault ∧
          fault.kind = .aliasCollision := by
  rw [addAliases, Entries.contains, ha, Bool.not_true, if_neg Bool.false_ne_true]
  cases hlookup : known.lookup a with
  | some other => exact .inr ⟨fun h => Option.some_ne_none _ h.1, _, rfl, rfl⟩
  | none =>
    cases declared.lookup a with
    | some f => exact .inr ⟨fun h => Option.some_ne_none _ h.2, _, rfl, rfl⟩
    | none => exact .inl ⟨⟨rfl, rfl⟩, by rw [← Entries.insert_of_absent hlookup]; rfl⟩

/-- Aliases that can be found are added exactly if they can be put behind those that are known; what
goes wrong otherwise is a collision. -/
theorem addAliases_iff {name : Value} {names : List Value} (hkeys : ∀ a ∈ names, a.isKey = true) :
    ∀ {known : Entries Value}, known.Distinct →
      (∀ known', addAliases declared name names known = .ok known' ↔
        Joins declared known (ownedBy name names) known') ∧
      ∀ fault, addAliases declared name names known = .error fault → fault.kind = .aliasCollision := by
  induction names with
  | nil =>
    intro known hknown
    refine ⟨fun known' => ?_, fun fault h => by cases h⟩
    rw [show ownedBy name [] = [] from rfl, joins_nil_iff hknown, addAliases]
    exact ⟨fun h => (Except.ok.inj h).symm, fun h => congrArg _ h.symm⟩
  | cons a rest ih =>
    intro known hknown
    obtain ⟨ha, hrest⟩ := List.forall_mem_cons.1 hkeys
    have hsplit : ∀ known', Joins declared known (ownedBy name (a :: rest)) known' ↔
        Joins declared known [(a, name)] (known ++ [(a, name)]) ∧
          Joins declared (known ++ [(a, name)]) (ownedBy name rest) known' :=
      fun known' => show Joins declared known ([(a, name)] ++ ownedBy name rest) known' ↔ _ from
        joins_append_iff
    rcases @addAliases_cons declared name a ha rest known with
      ⟨hnew, hstep⟩ | ⟨hold, fault, hstep, hkind⟩
    · have hjoins := (joins_singleton_iff (o := (a, name)) hknown).2 hnew
      obtain ⟨hok, herror⟩ := ih hrest hjoins.distinct
      rw [hstep]
      refine ⟨fun known' => ?_, herror⟩
      rw [hsplit, hok]
      exact ⟨fun h => ⟨hjoins, h⟩, fun h => h.2⟩
    · rw [hstep]
      refine ⟨fun known' => ⟨fun h => (by cases h), fun h => ?_⟩, ?_⟩
      · exact absurd ((joins_singleton_iff hknown).1 ((hsplit known').1 h).1) hold
      · rintro fault' ⟨⟩
        exact hkind

/-- The fields of a list are added exactly if their aliases can be put behind those that are known; what
goes wrong otherwise is a collision. -/
theorem addFields_iff {es : Entries Field} (hkeys : ∀ e ∈ es, ∀ a ∈ e.2.aliases, a.isKey = true) :
    ∀ {m : AliasMap}, m.aliases.Distinct →
      (∀ known', (∃ m', addFields declared es m = .ok m' ∧ m'.aliases = known') ↔
        Joins declared m.aliases (owners es) known') ∧
      ∀ fault, addFields declared es m = .error fault → fault.kind = .aliasCollision := by
  induction es with
  | nil =>
    intro m hm
    refine ⟨fun known' => ?_, fun fault h => by cases h⟩
    rw [show owners [] = [] from rfl, joins_nil_iff hm]
    constructor
    · rintro ⟨m', h, rfl⟩
      rw [← Except.ok.inj h]
    · rintro rfl
      exact ⟨m, rfl, rfl⟩
  | cons e rest ih =>
    intro m hm
    obtain ⟨name, f⟩ := e
    obtain ⟨hf, hrest⟩ := List.forall_mem_cons.1 hkeys
    have hnames : ∀ a ∈ Value.unique f.aliases, a.isKey = true :=
      fun a ha => hf a (Value.mem_of_mem_unique ha)
    obtain ⟨hok, herror⟩ := @addAliases_iff declared name _ hnames _ hm
    have hsplit : ∀ known', Joins declared m.aliases (owners ((name, f) :: rest)) known' ↔
        Joins declared m.aliases (ownedBy name (Value.unique f.aliases))
            (m.aliases ++ ownedBy name (Value.unique f.aliases)) ∧
          Joins declared (m.aliases ++ ownedBy name (Value.unique f.aliases)) (owners rest) known' :=
      fun known' => joins_append_iff
    rw [addFields]
    cases hadd : addAliases declared name (Value.unique f.aliases) m.aliases with
    | error fault =>
      refine ⟨fun known' => ⟨?_, fun h => ?_⟩, ?_⟩
      · rintro ⟨m', h, -⟩
        cases h
      · rw [(hok _).2 ((hsplit known').1 h).1] at hadd
        cases hadd
      · rintro fault' ⟨⟩
        exact herror fault hadd
    | ok known =>
      have hjoins := (hok known).1 hadd
      have heq := hjoins.eq
      subst heq
      obtain ⟨hlater, hlaterError⟩ := ih hrest
        (m := ⟨if (Value.unique f.aliases).isEmpty then m.fields
          else m.fields.insert name (Value.unique f.aliases),
          m.aliases ++ ownedBy name (Value.unique f.aliases)⟩) hjoins.distinct
      refine ⟨fun known' => ?_, hlaterError⟩
      rw [hsplit known']
      exact (hlater known').trans ⟨fun h => ⟨hjoins, h⟩, fun h => h.2⟩

/-- The aliases of declared fields can be put into one mapping exactly if no two declarations
collide. -/
theorem joins_owners_iff (hd : declared.Distinct)
    (hkeys : ∀ e ∈ declared, ∀ a ∈ e.2.aliases, a.isKey = true) :
    Joins declared [] (owners declared) (owners declared) ↔ ¬Collides declared := by
  have hsymm : Std.Symm fun e e' : Value × Field =>
      ∀ o ∈ ownedBy e.1 (Value.unique e.2.aliases), ∀ o' ∈ ownedBy e'.1 (Value.unique e'.2.aliases),
        o.1.key? ≠ o'.1.key? := ⟨fun _ _ h o ho o' ho' => (h o' ho' o ho).symm⟩
  constructor
  · rintro ⟨houtside, hdistinct, -⟩ ⟨e, he, a, ha, hcollides⟩
    have hlists : e.2.Lists a := ⟨a, ha, rfl⟩
    obtain ⟨b, hkey, hb⟩ := exists_owner he hlists
    rcases hcollides with hname | ⟨e', he', hne, hlists'⟩
    · have hnone : declared.lookup b = none := houtside _ hb
      rw [Entries.lookup_congr hkey] at hnone
      unfold Entries.contains at hname
      rw [hnone] at hname
      cases hname
    · -- Two different fields have no common alias among the owners.
      have hapart := (List.pairwise_flatMap.1 hdistinct).2
      have hdifferent : e ≠ e' := by
        rintro rfl
        exact hne rfl
      obtain ⟨c, hc, hckey⟩ := hlists'
      obtain ⟨b, hb, hbkey⟩ := Value.exists_mem_unique ha
      obtain ⟨d, hd, hdkey⟩ := Value.exists_mem_unique hc
      refine List.Pairwise.forall hapart he he' hdifferent (b, e.1) (List.mem_map_of_mem hb)
        (d, e'.1) (List.mem_map_of_mem hd) ?_
      exact hbkey.trans (hckey.symm.trans hdkey.symm)
  · intro hfree
    refine ⟨?_, List.pairwise_flatMap.2 ⟨fun e he => ?_, ?_⟩, rfl⟩
    · rintro ⟨a, name⟩ ho
      obtain ⟨e, he, ha, -⟩ := mem_owners.1 ho
      cases hlookup : declared.lookup a with
      | none => rfl
      | some f =>
        refine absurd ⟨e, he, a, Value.mem_of_mem_unique ha, .inl ?_⟩ hfree
        unfold Entries.contains
        rw [hlookup]
        rfl
    · exact List.pairwise_map.2 (Value.pairwise_key?_unique (hkeys e he))
    · refine hd.imp_of_mem fun {e e'} he he' hne o ho o' ho' hkey => hfree ?_
      obtain ⟨a, ha, rfl⟩ := List.mem_map.1 ho
      obtain ⟨b, hb, rfl⟩ := List.mem_map.1 ho'
      exact ⟨e, he, a, Value.mem_of_mem_unique ha, .inr ⟨e', he', hne.symm, b,
        Value.mem_of_mem_unique hb, hkey.symm⟩⟩

/-- Aliases that have been added can be found. -/
theorem isKey_of_addAliases {name : Value} {names : List Value} {known known' : Entries Value}
    (h : addAliases declared name names known = .ok known') : ∀ a ∈ names, a.isKey = true := by
  induction names generalizing known with
  | nil => exact fun a ha => absurd ha List.not_mem_nil
  | cons a rest ih =>
    rw [addAliases] at h
    split at h
    · cases h
    · next ha =>
      split at h
      · cases h
      · split at h
        · cases h
        · exact List.forall_mem_cons.2 ⟨by simpa using ha, ih h⟩

/-- The aliases of fields that have been added can be found. -/
theorem isKey_of_addFields {es : Entries Field} {m m' : AliasMap}
    (h : addFields declared es m = .ok m') : ∀ e ∈ es, ∀ a ∈ e.2.aliases, a.isKey = true := by
  induction es generalizing m with
  | nil => exact fun e he => absurd he List.not_mem_nil
  | cons e rest ih =>
    obtain ⟨name, f⟩ := e
    rw [addFields] at h
    obtain ⟨known, hadd, h⟩ := bind_eq_ok_iff.1 h
    refine List.forall_mem_cons.2 ⟨fun a ha => ?_, ih h⟩
    obtain ⟨b, hb, hkey⟩ := Value.exists_mem_unique ha
    have hbkey := isKey_of_addAliases hadd b hb
    unfold Value.isKey at hbkey ⊢
    rwa [← hkey]

end

/-! ## What the map knows -/

/-- Without a collision the map knows all aliases and their fields. -/
theorem resolved_of_joins {declared : Entries Field} {m : AliasMap} (hd : declared.Distinct)
    (hkeys : ∀ e ∈ declared, ∀ a ∈ e.2.aliases, a.isKey = true) (hm : Fits declared m)
    (hjoins : Joins declared [] (owners declared) m.aliases) : Resolved declared m := by
  have haliases : m.aliases = owners declared := hjoins.eq
  have hdistinct : Entries.Distinct (owners declared) := hjoins.distinct
  have hisKey : ∀ e ∈ declared, ∀ k, e.2.Lists k → k.isKey = true := by
    rintro e he k ⟨a, ha, hkey⟩
    have hakey := hkeys e he a ha
    unfold Value.isKey at hakey ⊢
    rwa [← hkey]
  have hlookup : ∀ e ∈ declared, ∀ k, e.2.Lists k → m.aliases.lookup k = some e.1 := by
    intro e he k hlists
    obtain ⟨a, hkey, hmem⟩ := exists_owner he hlists
    rw [haliases, ← Entries.lookup_congr hkey]
    exact hdistinct.lookup_of_mem hmem
  have hnames : ∀ e ∈ declared, (m.fields.lookup e.1).getD [] = Value.unique e.2.aliases := by
    intro e he
    rw [hm.fields_eq]
    exact lookup_listed hd (hd.lookup_of_mem he)
  refine ⟨?_, ?_, ?_, ?_, ?_, ?_, fun k hk => hm.lookup_fields_eq_none hk⟩
  · intro e he k hlists
    obtain ⟨a, hkey, hmem⟩ := exists_owner he hlists
    have hnone : declared.lookup a = none := hjoins.outside _ hmem
    unfold Entries.contains
    rw [← Entries.lookup_congr hkey, hnone]
    rfl
  · intro e he e' he' k hlists hlists'
    have hname : some e.1 = some e'.1 := (hlookup e he k hlists).symm.trans (hlookup e' he' k hlists')
    have hfield : some e.2 = some e'.2 := by
      rw [← hd.lookup_of_mem he, ← hd.lookup_of_mem he', Option.some.inj hname]
    exact Prod.ext (Option.some.inj hname) (Option.some.inj hfield)
  · intro e he k hlists
    unfold canonical
    rw [if_pos (hisKey e he k hlists), hlookup e he k hlists]
  · intro k hk hnone
    unfold canonical
    rw [if_pos hk, haliases]
    refine congrArg _ (Entries.lookup_eq_none_iff.2 ?_)
    rintro ⟨a, name⟩ ho hkey
    obtain ⟨e, he, ha, -⟩ := mem_owners.1 ho
    exact hnone e he ⟨a, Value.mem_of_mem_unique ha, hkey⟩
  · intro e he
    rw [hnames e he, Value.unique_eq_firsts (hkeys e he)]
  · intro k
    cases hfield : declared.lookup k with
    | none =>
      rw [hm.lookup_fields_eq_none hfield]
      exact List.Pairwise.nil
    | some f =>
      obtain ⟨l, hl, hkey⟩ := Entries.exists_mem_of_lookup hfield
      rw [← Entries.lookup_congr hkey, hnames _ hl]
      exact Value.pairwise_key?_unique (hkeys _ hl)

/-- For declared fields whose aliases can be found, the map is refused as a collision exactly if an alias
is the name of a field or is listed by two fields. Otherwise the map is built, and it knows each
alias with the one field that lists it and each field with its aliases without repetitions. -/
theorem build_collides_iff {declared : Entries Field} (hd : declared.Distinct)
    (hkeys : ∀ e ∈ declared, ∀ a ∈ e.2.aliases, a.isKey = true) :
    ((∃ fault, build declared = .error fault ∧ fault.kind = .aliasCollision) ↔ Collides declared) ∧
      ((∃ m, build declared = .ok m) ↔ ¬Collides declared) ∧
      ∀ m, build declared = .ok m → Resolved declared m := by
  obtain ⟨hok, herror⟩ := @addFields_iff declared declared hkeys {} List.Pairwise.nil
  have hbuilt : (∃ m, build declared = .ok m) ↔ ¬Collides declared := by
    rw [← joins_owners_iff hd hkeys, ← hok]
    constructor
    · rintro ⟨m, hm⟩
      have hjoins := (hok m.aliases).1 ⟨m, hm, rfl⟩
      exact ⟨m, hm, hjoins.eq⟩
    · rintro ⟨m, hm, -⟩
      exact ⟨m, hm⟩
  refine ⟨?_, hbuilt, fun m hm => ?_⟩
  · rw [← not_iff_not, ← hbuilt]
    cases hm : build declared with
    | ok m =>
      exact ⟨fun _ => ⟨m, rfl⟩, by rintro - ⟨fault, h, -⟩; cases h⟩
    | error fault =>
      refine ⟨fun h => absurd ⟨fault, rfl, herror fault hm⟩ h, ?_⟩
      rintro ⟨m, h⟩
      cases h
  · exact resolved_of_joins hd hkeys (build_fits hd hm) ((hok m.aliases).1 ⟨m, hm, rfl⟩)

/-- A field that lists an alias again, and a second field with the given alias. -/
def contacts (other : String) : Entries Field :=
  [(.str "email", { name := .str "email", directives :=
      [(.str "alias", .list [.str "mail", .str "address", .str "mail"])] }),
    (.str "name", { name := .str "name", directives := [(.str "alias", .str other)] })]

/-- The repeated alias is no collision and counts where it is first listed; an alias of both fields is
one. -/
theorem build_collides_contacts :
    (¬Collides (contacts "nick") ∧ ∃ m, build (contacts "nick") = .ok m ∧
      m.canonical (.str "mail") = .ok (some (.str "email")) ∧
      m.fields.lookup (.str "email") = some [.str "mail", .str "address"]) ∧
    Collides (contacts "address") := by
  obtain ⟨-, hfree, hresolved⟩ := @build_collides_iff (contacts "nick") (by decide) (by decide)
  obtain ⟨hcollides, -, -⟩ := @build_collides_iff (contacts "address") (by decide) (by decide)
  refine ⟨⟨hfree.1 ⟨_, rfl⟩, _, rfl, ?_, rfl⟩, hcollides.1 ⟨_, rfl, rfl⟩⟩
  exact (hresolved _ rfl).canonical_alias _ List.mem_cons_self _ ⟨_, List.mem_cons_self, rfl⟩

end AliasMap

end ParamCheck
