import ParamCheck.Proofs.Merge.Contribution
import ParamCheck.Proofs.Returns

/-!
# The order of precedence among declarations

A directive that holds a single value has, in a resolved field, the value that the first contributor
gives it (`lookup_resolve`). The contributors of a field are its own declaration, its mixins and its
sources (`contributors`). A source that is declared earlier is resolved by then. One that is
declared later, or the field itself, has only its own directives and those of its mixins.

The phases of resolving are taken in turn. The first two treat every field by itself
(`acceptAll_eq`, `mixinPhase_eq`). In the third, a field is complete once its turn is over and
untouched before (`lookup_sourcePhase_of_ne`, `sourcePhase_eq`).
-/

namespace ParamCheck.Merge

variable {table : DirectiveTable} {policy : Policy}

/-! ## Accepting declarations -/

/-- The directives that may stand in a declaration are what is left of it. -/
theorem acceptEntries_eq {owner : Section} {name : Value} {spec d : Directives} {s t : Journal}
    (h : Returns (acceptEntries table policy owner name spec) s d t) :
    d = accepted table owner spec := by
  unfold accepted
  induction spec generalizing s d with
  | nil =>
    rw [acceptEntries, Returns.pure_iff] at h
    exact h.1.symm
  | cons e rest ih =>
    obtain ⟨key, v⟩ := e
    rw [acceptEntries] at h
    rw [List.filter_cons]
    split at h
    · next hkey =>
      simp only [Returns.bind_iff, Returns.pure_iff] at h
      obtain ⟨r, u, hr, rfl, rfl⟩ := h
      rw [if_pos hkey, ih hr]
    · next hkey =>
      simp only [Returns.bind_iff] at h
      obtain ⟨-, u, -, hr⟩ := h
      rw [if_neg hkey, ih hr]

/-- Every declaration is left with the directives that may stand in it. -/
theorem acceptAll_eq {owner : Section} {decls : Entries Directives} {ds : Entries Directives}
    {s t : Journal}
    (h : Returns (acceptAll table policy owner (decls.mapValues Value.dict)) s ds t) :
    ds = decls.mapValues (accepted table owner) := by
  induction decls generalizing s ds with
  | nil =>
    rw [Entries.mapValues, List.map_nil, acceptAll, Returns.pure_iff] at h
    exact h.1.symm
  | cons e rest ih =>
    obtain ⟨name, spec⟩ := e
    rw [Entries.mapValues, List.map_cons, acceptAll] at h
    simp only [Returns.bind_iff, Returns.pure_iff] at h
    obtain ⟨d, u, hd, ds', w, hds, rfl, rfl⟩ := h
    rw [acceptEntries_eq hd, ih hds]
    rfl

/-! ## Mixins -/

/-- The directives of a field after its mixins: those that exist are merged in their order. -/
def mixedIn (table : DirectiveTable) (mixins : Entries Directives) (d : Directives) : Directives :=
  ((listed d "mixin").filterMap mixins.lookup).foldl (merge table false) d

/-- Applying mixins merges those that exist. -/
theorem applyMixins_eq {mixins : Entries Directives} {name : Value} {names : List Value}
    {target d : Directives} {s t : Journal}
    (h : Returns (applyMixins table policy mixins name names target) s d t) :
    d = (names.filterMap mixins.lookup).foldl (merge table false) target := by
  induction names generalizing s target with
  | nil =>
    rw [applyMixins, Returns.pure_iff] at h
    exact h.1.symm
  | cons m rest ih =>
    rw [applyMixins] at h
    split at h
    · simp at h
    · dsimp only at h
      split at h
      · next hm =>
        simp only [Returns.bind_iff] at h
        obtain ⟨-, u, -, hrest⟩ := h
        -- A mixin that does not exist is passed over.
        rw [List.filterMap_cons_none hm]
        exact ih hrest
      · next source hm =>
        simp only [Returns.bind_iff] at h
        obtain ⟨-, u, -, hrest⟩ := h
        rw [List.filterMap_cons_some hm, List.foldl_cons]
        exact ih hrest

/-- Every field is left with its directives after its mixins. -/
theorem mixinPhase_eq {mixins fields ds : Entries Directives} {s t : Journal}
    (h : Returns (mixinPhase table policy mixins fields) s ds t) :
    ds = fields.mapValues (mixedIn table mixins) := by
  induction fields generalizing s ds with
  | nil =>
    rw [mixinPhase, Returns.pure_iff] at h
    exact h.1.symm
  | cons e rest ih =>
    obtain ⟨name, d⟩ := e
    rw [mixinPhase] at h
    simp only [Returns.bind_iff, Returns.pure_iff] at h
    obtain ⟨d', u, hd, ds', w, hds, rfl, rfl⟩ := h
    rw [applyMixins_eq hd, ih hds]
    rfl

/-- A single value that merging finds is the first one. -/
theorem lookup_foldl_merge {k : Value} (hk : Single table k) (sources : List Directives)
    (hsources : ∀ d ∈ sources, d.lookup k ≠ none → carries table false k = true) :
    ∀ target, (sources.foldl (merge table false) target).lookup k =
      (target :: sources).findSome? (·.lookup k) := by
  induction sources with
  | nil =>
    intro target
    cases h : target.lookup k <;> simp [h]
  | cons d rest ih =>
    intro target
    -- Whatever a source has of the directive is taken over.
    have hd : (if carries table false k then d.lookup k else none) = d.lookup k := by
      split
      · rfl
      · next hc =>
        by_contra hne
        exact hc (hsources d List.mem_cons_self (Ne.symm hne))
    rw [List.foldl_cons, ih fun e he => hsources e (List.mem_cons_of_mem _ he)]
    simp only [List.findSome?_cons, lookup_merge hk, hd]
    cases target.lookup k <;> rfl

/-! ## Sources -/

/-- Copying sources into a field leaves the other fields. -/
theorem lookup_applySources_of_ne {name n : Value} (hn : name.key? ≠ n.key?) {sources : List Value}
    {all all' : Entries Directives} {s t : Journal}
    (h : Returns (applySources table policy name sources all) s all' t) :
    all'.lookup n = all.lookup n := by
  induction sources generalizing s all with
  | nil =>
    rw [applySources, Returns.pure_iff] at h
    rw [h.1]
  | cons source rest ih =>
    rw [applySources] at h
    split at h
    · simp at h
    · dsimp only at h
      split at h
      · simp only [Returns.bind_iff] at h
        obtain ⟨-, u, -, hrest⟩ := h
        exact ih hrest
      · simp only [Returns.bind_iff] at h
        obtain ⟨-, u, -, hrest⟩ := h
        rw [ih hrest, Entries.lookup_insert, if_neg hn]

/-- The directives of a field after it has copied the sources of a list that exist, given the directives of
the other fields. A field that is a source of its own copies what it has by then. -/
def copySources (table : DirectiveTable) (name : Value) (state : Value → Option Directives) :
    List Value → Directives → Directives
  | [], d => d
  | source :: rest, d =>
    match if name.key? = source.key? then some d else state source with
    | none => copySources table name state rest d
    | some e => copySources table name state rest (copyField table d e)

/-- Copying goes by the directives of the other fields among the sources. -/
theorem copySources_congr {name : Value} {f g : Value → Option Directives} {sources : List Value}
    (h : ∀ n ∈ sources, name.key? ≠ n.key? → f n = g n) :
    ∀ d, copySources table name f sources d = copySources table name g sources d := by
  induction sources with
  | nil => exact fun _ => rfl
  | cons source rest ih =>
    intro d
    obtain ⟨hfirst, hrest⟩ := List.forall_mem_cons.1 h
    have hsource : (if name.key? = source.key? then some d else f source) =
        if name.key? = source.key? then some d else g source := by
      split
      · rfl
      · next hne => exact hfirst hne
    rw [copySources, copySources, hsource]
    split
    · exact ih hrest d
    · exact ih hrest _

/-- Applying sources copies those that exist. -/
theorem applySources_eq {name : Value} {sources : List Value} {all all' : Entries Directives}
    {d : Directives} {s t : Journal} (hd : all.lookup name = some d)
    (h : Returns (applySources table policy name sources all) s all' t) :
    all'.keys = all.keys ∧ all'.lookup name = some (copySources table name all.lookup sources d) := by
  induction sources generalizing s all d with
  | nil =>
    rw [applySources, Returns.pure_iff] at h
    obtain ⟨rfl, -⟩ := h
    exact ⟨rfl, hd⟩
  | cons source rest ih =>
    -- The field itself is among those that exist.
    have hstate : (if name.key? = source.key? then some d else all.lookup source) = all.lookup source := by
      split
      · next hkey => rw [← Entries.lookup_congr hkey all, hd]
      · rfl
    rw [applySources] at h
    rw [copySources, hstate]
    split at h
    · simp at h
    · cases he : all.lookup source with
      | none =>
        simp only [he, Returns.bind_iff] at h
        obtain ⟨-, u, -, hrest⟩ := h
        exact ih hd hrest
      | some e =>
        simp only [he, Returns.bind_iff] at h
        obtain ⟨-, u, -, hrest⟩ := h
        rw [hd, Option.getD_some] at hrest
        have hnext : (all.insert name (copyField table d e)).lookup name =
            some (copyField table d e) := by
          rw [Entries.lookup_insert, if_pos rfl]
        obtain ⟨hkeys, hlookup⟩ := ih hnext hrest
        rw [Entries.keys_insert_of_present hd] at hkeys
        refine ⟨hkeys, hlookup.trans (congrArg some (copySources_congr (fun n _ hn => ?_) _))⟩
        rw [Entries.lookup_insert, if_neg hn]

/-- A field that copies sources has, for a single value, its own or the first that is offered. -/
theorem lookup_copySources {name k : Value} (hk : Single table k) {state : Value → Option Directives}
    (sources : List Value) :
    ∀ {d : Directives}, (d.lookup k = none → ∀ n, name.key? = n.key? →
        (state n).bind (fun e => (accepted table .mixin e).lookup k) = none) →
      (copySources table name state sources d).lookup k =
        (d.lookup k).or (sources.findSome? fun source =>
          (state source).bind fun e => (accepted table .mixin e).lookup k) := by
  induction sources with
  | nil =>
    intro d _
    rw [copySources, List.findSome?_nil, Option.or_none]
  | cons source rest ih =>
    intro d hself
    rw [copySources, List.findSome?_cons]
    by_cases hkey : name.key? = source.key?
    · -- The field has nothing new to offer to itself.
      rw [if_pos hkey]
      dsimp only
      have hcopy : (copyField table d d).lookup k = d.lookup k := by
        rw [lookup_copyField hk, lookup_accepted]
        cases d.lookup k <;> simp
      rw [ih (hcopy.symm ▸ hself), hcopy]
      cases hd : d.lookup k with
      | some v => rfl
      | none => rw [hself hd source hkey]
    · rw [if_neg hkey]
      cases state source with
      | none => exact ih hself
      | some e =>
        have hlookup := lookup_copyField hk d e
        dsimp only [Option.bind_some]
        cases hek : (accepted table .mixin e).lookup k with
        | none =>
          rw [hek, Option.or_none] at hlookup
          rw [ih (hlookup.symm ▸ hself), hlookup]
        | some v =>
          rw [hek] at hlookup
          rw [ih fun hnone => ?_, hlookup]
          · cases d.lookup k <;> rfl
          · rw [hnone] at hlookup
            cases hd : d.lookup k <;> rw [hd] at hlookup <;> cases hlookup

/-- A field whose turn does not come keeps its directives. -/
theorem lookup_sourcePhase_of_ne {n : Value} {names : List Value}
    (hn : ∀ m ∈ names, m.key? ≠ n.key?) {all all' : Entries Directives} {s t : Journal}
    (h : Returns (sourcePhase table policy names all) s all' t) :
    all'.lookup n = all.lookup n := by
  induction names generalizing s all with
  | nil =>
    rw [sourcePhase, Returns.pure_iff] at h
    rw [h.1]
  | cons m rest ih =>
    rw [sourcePhase] at h
    simp only [Returns.bind_iff] at h
    obtain ⟨all₁, u, hfirst, hrest⟩ := h
    rw [ih (fun m' hm' => hn m' (List.mem_cons_of_mem _ hm')) hrest,
      lookup_applySources_of_ne (hn m List.mem_cons_self) hfirst]

/-- The names of a list are pairwise different, as keys. -/
abbrev DistinctNames (names : List Value) : Prop := names.Pairwise fun m n => m.key? ≠ n.key?

/-- The directives of a field when those of some names have had their turns, given the fields before all turns
and after them. -/
def afterTurns (done : List Value) (all all' : Entries Directives) (n : Value) : Option Directives :=
  if ∃ m ∈ done, m.key? = n.key? then all'.lookup n else all.lookup n

/-- A turn changes the field of its own name, and no later turn changes that. -/
theorem afterTurns_cons {first : Value} {all next all' : Entries Directives}
    (hothers : ∀ n, first.key? ≠ n.key? → next.lookup n = all.lookup n)
    (hdone : all'.lookup first = next.lookup first) (done : List Value) (n : Value) :
    afterTurns done next all' n = afterTurns (first :: done) all all' n := by
  unfold afterTurns
  by_cases hearlier : ∃ m ∈ done, m.key? = n.key?
  · obtain ⟨m, hm, hkey⟩ := hearlier
    rw [if_pos ⟨m, hm, hkey⟩, if_pos ⟨m, List.mem_cons_of_mem _ hm, hkey⟩]
  · rw [if_neg hearlier]
    by_cases hkey : first.key? = n.key?
    · rw [if_pos ⟨first, List.mem_cons_self, hkey⟩, ← Entries.lookup_congr hkey next,
        ← Entries.lookup_congr hkey all', hdone]
    · rw [if_neg, hothers n hkey]
      rintro ⟨m, hm, hm'⟩
      rcases List.mem_cons.1 hm with rfl | hm
      · exact hkey hm'
      · exact hearlier ⟨m, hm, hm'⟩

/-- A field at its turn copies its sources from fields that are complete or have not had their turn. -/
theorem sourcePhase_eq {names : List Value} (hnames : DistinctNames names)
    {all all' : Entries Directives} {s t : Journal} (hall : ∀ n ∈ names, ∃ d, all.lookup n = some d)
    (h : Returns (sourcePhase table policy names all) s all' t) :
    all'.keys = all.keys ∧ ∀ before name after d, names = before ++ name :: after →
      all.lookup name = some d →
        all'.lookup name =
          some (copySources table name (afterTurns before all all') (listed d "mixin_field") d) := by
  induction names generalizing s all with
  | nil =>
    rw [sourcePhase, Returns.pure_iff] at h
    obtain ⟨rfl, -⟩ := h
    refine ⟨rfl, fun before name after d hsplit => ?_⟩
    exact absurd hsplit.symm (by simp)
  | cons first rest ih =>
    obtain ⟨hnew, hrest'⟩ := List.pairwise_cons.1 hnames
    rw [sourcePhase] at h
    simp only [Returns.bind_iff] at h
    obtain ⟨all₁, u, hfirst, hrest⟩ := h
    obtain ⟨d₁, hd₁⟩ := hall first List.mem_cons_self
    rw [hd₁, Option.getD_some] at hfirst
    obtain ⟨hkeys₁, hlookup⟩ := applySources_eq hd₁ hfirst
    have hothers : ∀ n, first.key? ≠ n.key? → all₁.lookup n = all.lookup n :=
      fun n hn => lookup_applySources_of_ne hn hfirst
    have hdone : all'.lookup first = all₁.lookup first :=
      lookup_sourcePhase_of_ne (fun m hm => (hnew m hm).symm) hrest
    -- The first field has its turn only once, and the others have theirs after it.
    obtain ⟨hkeys, hlater⟩ := ih hrest' (fun n hn => by
      rw [hothers n (hnew n hn)]
      exact hall n (List.mem_cons_of_mem _ hn)) hrest
    refine ⟨hkeys.trans hkeys₁, fun before name after d hsplit hd => ?_⟩
    cases before with
    | nil =>
      obtain ⟨rfl, rfl⟩ := List.cons.inj hsplit
      obtain rfl : d₁ = d := Option.some.inj (hd₁.symm.trans hd)
      rw [hdone, hlookup]
      exact congrArg some (copySources_congr (fun n _ _ => (if_neg (by simp)).symm) _)
    | cons m before =>
      obtain ⟨rfl, rfl⟩ := List.cons.inj hsplit
      have hname : name ∈ before ++ name :: after := by simp
      rw [hlater before name after d rfl ((hothers name (hnew name hname)).trans hd)]
      exact congrArg some (copySources_congr (fun n _ _ => afterTurns_cons hothers hdone before n) _)

/-- A field is declared under each name of what is accepted. -/
theorem keys_acceptAll {owner : Section} {decls : List (Value × Value)} {ds : Entries Directives}
    {s t : Journal} (h : Returns (acceptAll table policy owner decls) s ds t) :
    ds.keys = Entries.keys decls := by
  induction decls generalizing s ds with
  | nil =>
    rw [acceptAll, Returns.pure_iff] at h
    rw [← h.1]
    rfl
  | cons e rest ih =>
    obtain ⟨name, spec⟩ := e
    cases spec with
    | dict spec =>
      rw [acceptAll] at h
      simp only [Returns.bind_iff, Returns.pure_iff] at h
      obtain ⟨d, u, hd, ds', w, hds, rfl, rfl⟩ := h
      exact congrArg (name :: ·) (ih hds)
    | _ => exact absurd h Returns.throw_iff.1

/-- The fields that are resolved are those of a mapping, in its order. -/
theorem keys_resolve {fields mixins : Value} {r : Entries Directives × Entries Directives}
    {s t : Journal} (h : Returns (resolve table policy fields mixins) s r t) :
    ∃ es, fields = .dict es ∧ (Entries.Distinct es → r.1.keys = Entries.keys es) := by
  rw [resolve] at h
  simp only [Returns.bind_iff, Returns.pure_iff] at h
  obtain ⟨_, _, -, ms, _, -, es, u, hes, acc, _, hacc, mixed, _, hmixed, final, _, hfinal, rfl, -⟩ := h
  cases fields with
  | dict fields =>
    obtain ⟨rfl, -⟩ := Returns.pure_iff.1 hes
    refine ⟨fields, rfl, fun hdistinct => ?_⟩
    have hkeys : mixed.keys = Entries.keys fields := by
      rw [mixinPhase_eq hmixed, Entries.keys_mapValues, keys_acceptAll hacc]
    have hnames : DistinctNames mixed.keys := by
      rw [DistinctNames, hkeys, ← Entries.distinct_iff_keys]
      exact hdistinct
    rw [Entries.keys_mapValues, (sourcePhase_eq hnames (fun n hn =>
      Entries.exists_lookup_of_mem_keys hn) hfinal).1, hkeys]
  | _ => exact absurd hes Returns.throw_iff.1

/-! ## Contributors -/

/-- The contributors of a field before any sources: its own declaration and its mixins that exist,
each with the directives that may stand in it. -/
def ownContributors (table : DirectiveTable) (mixins : Entries Directives) (spec : Directives) :
    List Directives :=
  accepted table .field spec ::
    ((listed (accepted table .field spec) "mixin").filterMap mixins.lookup).map
      (accepted table .mixin)

/-- What a source contributes, given the resolved fields and the declarations of the fields that
come earlier and later than the one that copies it, itself among the later ones. Only directives
that may stand in a mixin are copied. -/
def sourceContributors (table : DirectiveTable) (mixins resolved earlier later : Entries Directives)
    (source : Value) : List Directives :=
  if earlier.contains source then (resolved.lookup source).toList.map (accepted table .mixin)
  else
    match later.lookup source with
    | some spec => (ownContributors table mixins spec).map (accepted table .mixin)
    | none => []

/-- All contributors of a field in the order of precedence. -/
def contributors (table : DirectiveTable) (mixins resolved earlier later : Entries Directives)
    (spec : Directives) : List Directives :=
  ownContributors table mixins spec ++
    (listed (accepted table .field spec) "mixin_field").flatMap
      (sourceContributors table mixins resolved earlier later)

/-- The mixins that a field finds are those of its contributors. -/
theorem filterMap_lookup_accepted (mixins : Entries Directives) (names : List Value) :
    names.filterMap (mixins.mapValues (accepted table .mixin)).lookup =
      (names.filterMap mixins.lookup).map (accepted table .mixin) := by
  rw [List.map_filterMap]
  congr 1
  funext m
  exact Entries.lookup_mapValues _ _ _

/-- A single value of a field after its mixins is that of the first contributor. -/
theorem lookup_mixedIn {k : Value} (hk : Single table k) (mixins : Entries Directives)
    (spec : Directives) :
    (mixedIn table (mixins.mapValues (accepted table .mixin)) (accepted table .field spec)).lookup k =
      (ownContributors table mixins spec).findSome? (·.lookup k) := by
  unfold mixedIn ownContributors
  rw [filterMap_lookup_accepted, lookup_foldl_merge hk]
  intro d hd hne
  obtain ⟨m, -, rfl⟩ := List.mem_map.1 hd
  rw [lookup_accepted] at hne
  split at hne
  · next hmixin => exact carries_false_of_eligible hmixin
  · exact absurd rfl hne

/-- A directive that may not stand in a mixin is untouched by mixins. -/
theorem lookup_mixedIn_of_not_eligible {k : Value} (hk : eligible table .mixin k = false)
    (mixins : Entries Directives) (d : Directives) :
    (mixedIn table (mixins.mapValues (accepted table .mixin)) d).lookup k = d.lookup k := by
  unfold mixedIn
  rw [filterMap_lookup_accepted]
  generalize (listed d "mixin").filterMap mixins.lookup = sources
  induction sources generalizing d with
  | nil => rfl
  | cons source rest ih =>
    have habsent : (accepted table .mixin source).lookup k = none := by
      rw [lookup_accepted, hk]
      rfl
    rw [List.map_cons, List.foldl_cons, ih, lookup_merge_of_absent false habsent]

/-- A declaration is found among the earlier ones or the later ones. -/
theorem lookup_mixed (mixins earlier later : Entries Directives) (n : Value) :
    (((earlier ++ later).mapValues (accepted table .field)).mapValues
        (mixedIn table (mixins.mapValues (accepted table .mixin)))).lookup n =
      ((earlier.lookup n).or (later.lookup n)).map fun spec =>
        mixedIn table (mixins.mapValues (accepted table .mixin)) (accepted table .field spec) := by
  rw [Entries.lookup_mapValues, Entries.lookup_mapValues, Entries.lookup_append, Option.map_map]
  rfl

/-- The directives of a field after its mixins, given its declaration and those of the mixins. -/
def afterMixins (table : DirectiveTable) (mixins : Entries Directives) (spec : Directives) : Directives :=
  mixedIn table (mixins.mapValues (accepted table .mixin)) (accepted table .field spec)

/-- The directives of a field at the turn of another one, given the fields that are declared earlier than that
one and the others: complete, or else those after its mixins. -/
def stateAt (table : DirectiveTable) (mixins merged earlier later : Entries Directives) (n : Value) :
    Option Directives :=
  if earlier.contains n then merged.lookup n else (later.lookup n).map (afterMixins table mixins)

/-- Each field has been merged from its declaration, its mixins and its sources as they stand at its turn. -/
def Merged (table : DirectiveTable) (fields mixins merged : Entries Directives) : Prop :=
  ∀ (earlier later : Entries Directives) (name : Value) (spec : Directives),
    fields = earlier ++ (name, spec) :: later → merged.lookup name = some (copySources table name
      (stateAt table mixins merged earlier ((name, spec) :: later))
      (listed (accepted table .field spec) "mixin_field") (afterMixins table mixins spec))

/-- Mixins add no sources if these may not stand in a mixin. -/
theorem listed_afterMixins (hsource : eligible table .mixin (.str "mixin_field") = false)
    (mixins : Entries Directives) (spec : Directives) :
    listed (afterMixins table mixins spec) "mixin_field" =
      listed (accepted table .field spec) "mixin_field" := by
  rw [listed, listed, afterMixins, lookup_mixedIn_of_not_eligible hsource]

/-- Resolving merges one field after the other, and brings the filters of each together. -/
theorem resolve_eq {fields mixins resolved mixins' : Entries Directives} {s t : Journal}
    (hsource : eligible table .mixin (.str "mixin_field") = false) (hfields : fields.Distinct)
    (h : (resolve table policy (.dict (fields.mapValues .dict))
      (.dict (mixins.mapValues .dict))).run s = (.ok (resolved, mixins'), t)) :
    ∃ merged : Entries Directives, resolved = merged.mapValues joinFilters ∧ merged.keys = fields.keys ∧
      Merged table fields mixins merged := by
  have h' : Returns _ s (resolved, mixins') t := h
  rw [resolve] at h'
  simp only [entries, Returns.bind_iff, Returns.pure_iff] at h'
  obtain ⟨_, _, ⟨rfl, rfl⟩, ms, u₁, hms, _, _, ⟨rfl, rfl⟩, acc, u₂, hacc, mixed, u₃, hmixed, final,
    u₄, hfinal, hresult, -⟩ := h'
  obtain rfl := acceptAll_eq hms
  obtain rfl := acceptAll_eq hacc
  obtain rfl := mixinPhase_eq hmixed
  obtain ⟨rfl, rfl⟩ := Prod.mk.inj hresult
  have hkeys : ((fields.mapValues (accepted table .field)).mapValues (mixedIn table
      (mixins.mapValues (accepted table .mixin)))).keys = fields.keys := by
    rw [Entries.keys_mapValues, Entries.keys_mapValues]
  rw [hkeys] at hfinal
  obtain ⟨hkeys', hturn⟩ := sourcePhase_eq (List.pairwise_map.2 hfields) (fun n hn => by
    rw [← List.append_nil fields, lookup_mixed, Entries.lookup_nil, Option.or_none]
    obtain ⟨d, hd⟩ := Entries.exists_lookup_of_mem_keys hn
    exact ⟨_, by rw [hd]; rfl⟩) hfinal
  refine ⟨final, rfl, hkeys'.trans hkeys, ?_⟩
  rintro earlier later name spec rfl
  -- The field is declared once, so it is found among the later ones.
  have hnew : earlier.lookup name = none := by
    rw [Entries.lookup_eq_none_iff]
    intro e he
    exact (List.pairwise_append.1 hfields).2.2 e he (name, spec) List.mem_cons_self
  have hmixedIn := @lookup_mixed table mixins earlier ((name, spec) :: later) name
  rw [hnew, Option.none_or, Entries.lookup, if_pos rfl, Option.map_some] at hmixedIn
  have hsplit : Entries.keys (earlier ++ (name, spec) :: later) =
      earlier.keys ++ name :: Entries.keys later := by
    rw [Entries.keys, List.map_append, List.map_cons]
    rfl
  rw [hturn _ _ _ _ hsplit hmixedIn]
  refine congrArg some ?_
  show copySources table name _ (listed (afterMixins table mixins spec) "mixin_field") _ = _
  rw [listed_afterMixins hsource]
  refine copySources_congr (fun n _ _ => ?_) _
  unfold afterTurns stateAt
  by_cases hearlier : earlier.contains n = true
  · rw [if_pos hearlier, if_pos (Entries.contains_iff.1 hearlier)]
  · have hnone : earlier.lookup n = none := by
      simpa [Entries.contains] using hearlier
    rw [if_neg hearlier, if_neg (fun h => hearlier (Entries.contains_iff.2 h)), lookup_mixed, hnone,
      Option.none_or]
    rfl

/-- Searching lists one after the other is searching them in one. -/
theorem findSome?_flatMap {α β γ : Type} (g : α → List β) (f : β → Option γ) (l : List α) :
    (l.flatMap g).findSome? f = l.findSome? fun a => (g a).findSome? f := by
  induction l with
  | nil => rfl
  | cons a rest ih =>
    rw [List.flatMap_cons, List.findSome?_append, ih, List.findSome?_cons]
    cases (g a).findSome? f <;> rfl

/-- What a source has for a field at its turn is what it contributes. -/
theorem findSome?_sourceContributors {k : Value} (hk : Single table k)
    (hfilter : (Value.str "filter").key? ≠ k.key?) (hfilters : (Value.str "filters").key? ≠ k.key?)
    (mixins merged earlier later : Entries Directives) (source : Value) :
    (sourceContributors table mixins (merged.mapValues joinFilters) earlier later source).findSome?
        (·.lookup k) =
      (stateAt table mixins merged earlier later source).bind fun e =>
        (accepted table .mixin e).lookup k := by
  unfold sourceContributors stateAt
  by_cases hearlier : earlier.contains source = true
  · rw [if_pos hearlier, if_pos hearlier, Entries.lookup_mapValues]
    cases merged.lookup source with
    | none => rfl
    | some d =>
      simp only [Option.map_some, Option.toList_some, List.map_cons, List.map_nil,
        List.findSome?_cons, List.findSome?_nil, Option.bind_some, lookup_accepted,
        lookup_joinFilters hfilter hfilters]
      split <;> simp_all
  · rw [if_neg hearlier, if_neg hearlier]
    cases later.lookup source with
    | none => rfl
    | some spec =>
      simp only [Option.map_some, Option.bind_some, lookup_accepted, afterMixins, lookup_mixedIn hk]
      rw [List.findSome?_map]
      have hcomp : ((fun d : Directives => d.lookup k) ∘ accepted table .mixin) =
          fun d => if eligible table .mixin k then d.lookup k else none := by
        funext d
        exact lookup_accepted .mixin d k
      rw [hcomp]
      split
      · rfl
      · simp

/-- In a resolved field a directive that holds a single value has the value of the first
contributor that gives it one, and is missing if there is none. All fields are there, in the order
of their declarations. -/
theorem lookup_resolve {fields mixins resolved mixins' : Entries Directives} {s t : Journal}
    (hsource : eligible table .mixin (.str "mixin_field") = false) (hfields : fields.Distinct)
    (h : (resolve table policy (.dict (fields.mapValues .dict))
      (.dict (mixins.mapValues .dict))).run s = (.ok (resolved, mixins'), t)) :
    resolved.keys = fields.keys ∧ ∀ earlier name spec later,
      fields = earlier ++ (name, spec) :: later → ∃ d, resolved.lookup name = some d ∧
        ∀ k, Single table k → (Value.str "filter").key? ≠ k.key? →
          (Value.str "filters").key? ≠ k.key? →
            d.lookup k = (contributors table mixins resolved earlier ((name, spec) :: later)
              spec).findSome? (·.lookup k) := by
  obtain ⟨merged, rfl, hkeys, hturn⟩ := resolve_eq hsource hfields h
  refine ⟨by rw [Entries.keys_mapValues, hkeys], ?_⟩
  intro earlier name spec later hsplit
  have hmerged := hturn earlier later name spec hsplit
  refine ⟨_, by rw [Entries.lookup_mapValues, hmerged]; rfl, fun k hk hfilter hfilters => ?_⟩
  rw [lookup_joinFilters hfilter hfilters, lookup_copySources hk, afterMixins, lookup_mixedIn hk,
    contributors, List.findSome?_append, findSome?_flatMap]
  · congr 2
    funext source
    exact (findSome?_sourceContributors hk hfilter hfilters _ _ _ _ source).symm
  · -- The field is declared once, and offers to itself what it has after its mixins.
    intro hnone n hn
    have hnew : Entries.contains earlier n = false := by
      rw [Entries.contains, Entries.lookup_eq_none_iff.2 fun e he => ?_]
      · rfl
      · rw [← hn]
        rw [hsplit] at hfields
        exact (List.pairwise_append.1 hfields).2.2 e he (name, spec) List.mem_cons_self
    rw [stateAt, hnew, if_neg Bool.false_ne_true, Entries.lookup, if_pos hn, Option.map_some,
      Option.bind_some, lookup_accepted, hnone, ite_self]

/-- A chain of sources: the second field copies the first one, which has copied the third by then.
The unknown directive of the first field is dropped, and so is the mixin that does not exist. -/
def chained : Entries Directives :=
  [(.str "a", [(.str "mixin", .list [.str "none", .str "m"]), (.str "mixin_field", .str "c"),
      (.str "bogus", .int 1)]),
    (.str "b", [(.str "label", .str "B"), (.str "mixin_field", .list [.str "a", .str "b"])]),
    (.str "c", [(.str "min_length", .int 2), (.str "max_length", .int 9),
      (.str "label", .str "C")])]

/-- The mixin of the chain, with a label that may not stand in it. -/
def chainedMixins : Entries Directives :=
  [(.str "m", [(.str "max_length", .int 5), (.str "label", .str "M")])]

/-- What the second field of a chain gathers. -/
theorem lookup_resolve_chained :
    ∃ resolved mixins' t,
      (resolve .builtin { ignoreUnknown := true } (.dict (chained.mapValues .dict))
        (.dict (chainedMixins.mapValues .dict))).run {} = (.ok (resolved, mixins'), t) ∧
      ∃ d, resolved.lookup (.str "b") = some d ∧
        d.lookup (.str "label") = some (.str "B") ∧
        d.lookup (.str "min_length") = some (.int 2) ∧
        d.lookup (.str "max_length") = some (.int 5) ∧ d.lookup (.str "bogus") = none := by
  refine ⟨_, _, _, rfl, ?_⟩
  obtain ⟨-, h⟩ := @lookup_resolve .builtin { ignoreUnknown := true } chained chainedMixins _ _ {} _
    (by decide) (by decide) rfl
  obtain ⟨d, hd, hsingle⟩ := h [_] _ _ [_] rfl
  refine ⟨d, hd, ?_, ?_, ?_, ?_⟩
  · rw [hsingle (.str "label") (by unfold Single; decide) (by decide) (by decide)]
    rfl
  · rw [hsingle (.str "min_length") (by unfold Single; decide) (by decide) (by decide)]
    rfl
  · rw [hsingle (.str "max_length") (by unfold Single; decide) (by decide) (by decide)]
    rfl
  · rw [hsingle (.str "bogus") (by unfold Single; decide) (by decide) (by decide)]
    rfl

end ParamCheck.Merge
