import ParamCheck.Proofs.Merge.Precedence
import ParamCheck.Proofs.Value.Sameness

/-!
# Directives that hold several values

A directive that holds several values has, in a field that has been merged, the values of all contributors
without repetitions (`lookup_resolve_multiple`): nothing if there is no contributor, the value as it is if there
is one, and else the list that `combined` makes of them. Values are united pair by pair on the way, which
makes no difference to the list (`combined_concat`, `lookup_merge_multiple`).

The two spellings of the filter list are such directives, and a resolved field has the filters of both once.
-/

namespace ParamCheck

namespace Merge

variable {table : DirectiveTable} {policy : Policy} {k : Value}

/-- The table lets the directive hold several values. -/
def Multiple (table : DirectiveTable) (k : Value) : Prop :=
  ∃ d, Entries.lookup table k = some d ∧ d.multi = true

/-- What contributors make of the values that they give a directive: nothing if there is none, a single value
as it is, and several as one list without repetitions. -/
def combined : List Value → Option Value
  | [] => none
  | [v] => some v
  | vs => some (.list (Value.unique (vs.flatMap Value.toList)))

/-- A value that is contributed last is united with what the others have made. -/
theorem combined_concat (vs : List Value) (v : Value) :
    combined (vs ++ [v]) = some (match combined vs with
      | none => v
      | some w => .list (Value.unique (w.toList ++ v.toList))) := by
  match vs with
  | [] => rfl
  | [w] =>
    show some (Value.list (Value.unique ([w, v].flatMap Value.toList))) = _
    rw [List.flatMap_cons, List.flatMap_cons, List.flatMap_nil, List.append_nil]
    rfl
  | w :: x :: rest =>
    show some (Value.list (Value.unique ((w :: x :: rest ++ [v]).flatMap Value.toList))) =
      some (.list (Value.unique (Value.unique ((w :: x :: rest).flatMap Value.toList) ++ v.toList)))
    rw [Value.unique_unique_append, List.flatMap_append, List.flatMap_singleton]

/-! ## Merging -/

/-- A directive that holds several values is known. -/
theorem Multiple.carries_false (hk : Multiple table k) : carries table false k = true := by
  obtain ⟨d, hd, -⟩ := hk
  unfold carries
  rw [hd]
  rfl

/-- A contribution is united with what is there. -/
theorem lookup_contribute_multiple (hk : Multiple table k) {key : Value} (h : key.key? = k.key?)
    (copying : Bool) {target : Directives} {vs : List Value} (htarget : target.lookup k = combined vs)
    (v : Value) : (contribute table copying target key v).lookup k =
      combined (vs ++ if carries table copying k then [v] else []) := by
  obtain ⟨d, hd, hmulti⟩ := hk
  unfold contribute carries
  rw [Entries.lookup_congr h table, Entries.lookup_congr h target, hd]
  dsimp only
  by_cases hskip : (copying && !d.mixin) = true
  · have hcarry : ¬(!copying || d.mixin) = true := by
      cases copying <;> cases hm : d.mixin <;> simp_all
    rw [if_pos hskip, if_neg hcarry, List.append_nil, htarget]
  · have hcarry : (!copying || d.mixin) = true := by
      cases copying <;> cases hm : d.mixin <;> simp_all
    rw [if_neg hskip, if_pos hcarry, combined_concat, htarget]
    cases combined vs with
    | none =>
      dsimp only
      rw [Entries.lookup_insert, if_pos h]
    | some w =>
      dsimp only
      rw [if_pos hmulti, Entries.lookup_insert, if_pos h]

/-- What a source has of the directive is united with what is there. -/
theorem lookup_merge_multiple (hk : Multiple table k) (copying : Bool) {source : Directives}
    (hsource : source.Distinct) : ∀ {target : Directives} {vs : List Value}, target.lookup k = combined vs →
      (merge table copying target source).lookup k =
        combined (vs ++ if carries table copying k then (source.lookup k).toList else []) := by
  induction source with
  | nil =>
    intro target vs htarget
    rw [Entries.lookup_nil, Option.toList_none, ite_self, List.append_nil]
    exact htarget
  | cons e rest ih =>
    intro target vs htarget
    obtain ⟨key, v⟩ := e
    obtain ⟨hfirst, hrest⟩ := List.pairwise_cons.1 hsource
    show (merge table copying (contribute table copying target key v) rest).lookup k = _
    rw [Entries.lookup]
    by_cases h : key.key? = k.key?
    · -- The source has the directive once.
      have habsent : Entries.lookup rest k = none :=
        Entries.lookup_eq_none_iff.2 fun f hf => h ▸ (hfirst f hf).symm
      rw [lookup_merge_of_absent copying habsent, lookup_contribute_multiple hk h copying htarget, if_pos h]
      rfl
    · rw [if_neg h]
      exact ih hrest ((lookup_contribute_of_ne h copying target v).trans htarget)

/-- What mixins have of the directive is united in their order. -/
theorem lookup_foldl_merge_multiple (hk : Multiple table k) {sources : List Directives}
    (hsources : ∀ d ∈ sources, d.Distinct) : ∀ {target : Directives} {vs : List Value},
      target.lookup k = combined vs → (sources.foldl (merge table false) target).lookup k =
        combined (vs ++ sources.flatMap fun d => (d.lookup k).toList) := by
  induction sources with
  | nil =>
    intro target vs htarget
    rw [List.flatMap_nil, List.append_nil]
    exact htarget
  | cons d rest ih =>
    intro target vs htarget
    obtain ⟨hd, hrest⟩ := List.forall_mem_cons.1 hsources
    have hmerged := lookup_merge_multiple hk false hd htarget
    rw [if_pos hk.carries_false] at hmerged
    rw [List.foldl_cons, ih hrest hmerged, List.append_assoc, List.flatMap_cons]

/-- Copying another field unites what that has of the directive, if it may stand in a mixin. -/
theorem lookup_copyField_multiple (hk : Multiple table k) (hname : (Value.str "name").key? ≠ k.key?)
    (hlabel : (Value.str "label").key? ≠ k.key?) {target source : Directives} (hsource : source.Distinct)
    {vs : List Value} (htarget : target.lookup k = combined vs) :
    (copyField table target source).lookup k =
      combined (vs ++ if eligible table .mixin k then (source.lookup k).toList else []) := by
  unfold copyField
  rw [lookup_restore, if_neg hlabel, lookup_restore, if_neg hname,
    lookup_merge_multiple hk true hsource htarget, carries_true]

/-! ## Directives stand under different keys -/

/-- A contribution keeps the keys different. -/
theorem distinct_contribute (copying : Bool) {target : Directives} (h : target.Distinct) (key v : Value) :
    (contribute table copying target key v).Distinct := by
  unfold contribute
  split
  · exact h
  · split
    · exact h
    · split
      · exact h.insert key v
      · split
        · exact h.insert key _
        · exact h

/-- A merge keeps the keys different. -/
theorem distinct_merge (copying : Bool) (source : Directives) :
    ∀ {target : Directives}, target.Distinct → (merge table copying target source).Distinct := by
  induction source with
  | nil => exact fun h => h
  | cons e rest ih => exact fun h => ih (distinct_contribute copying h e.1 e.2)

/-- Copying a field keeps the keys different. -/
theorem distinct_copyField {target : Directives} (h : target.Distinct) (source : Directives) :
    (copyField table target source).Distinct := by
  have hrestore : ∀ (key : String) {d : Directives}, d.Distinct → (restore target key d).Distinct := by
    intro key d hd
    unfold restore
    split
    · exact hd.insert _ _
    · exact hd
  exact hrestore "label" (hrestore "name" (distinct_merge true source h))

/-- Copying sources keeps the keys different. -/
theorem distinct_copySources (name : Value) (state : Value → Option Directives) (sources : List Value) :
    ∀ {d : Directives}, d.Distinct → (copySources table name state sources d).Distinct := by
  induction sources with
  | nil => exact fun h => h
  | cons source rest ih =>
    intro d h
    unfold copySources
    split
    · exact ih h
    · exact ih (distinct_copyField h _)

/-- Of different directives those that may stand in a declaration are different. -/
theorem distinct_accepted (owner : Section) {spec : Directives} (h : spec.Distinct) :
    (accepted table owner spec).Distinct := List.Pairwise.filter _ h

/-- A field has different directives after its mixins. -/
theorem distinct_afterMixins (mixins : Entries Directives) {spec : Directives} (h : spec.Distinct) :
    (afterMixins table mixins spec).Distinct := by
  have hfold : ∀ (sources : List Directives) {target : Directives}, target.Distinct →
      (sources.foldl (merge table false) target).Distinct := by
    intro sources
    induction sources with
    | nil => exact fun h => h
    | cons source rest ih => exact fun h => ih (distinct_merge false source h)
  exact hfold _ (distinct_accepted .field h)

/-- Fields that have been merged have different directives. -/
theorem Merged.distinct {fields mixins merged : Entries Directives} (h : Merged table fields mixins merged)
    (hkeys : merged.keys = fields.keys) (hspecs : ∀ e ∈ fields, e.2.Distinct) {n : Value} {d : Directives}
    (hd : merged.lookup n = some d) : d.Distinct := by
  obtain ⟨l, hl, hkey⟩ := Entries.exists_mem_of_lookup hd
  have hlkeys : l ∈ fields.keys := hkeys ▸ List.mem_map_of_mem hl
  obtain ⟨f, hf, rfl⟩ := List.mem_map.1 hlkeys
  obtain ⟨earlier, later, hsplit⟩ := List.append_of_mem hf
  rw [← Entries.lookup_congr hkey, h earlier later f.1 f.2 hsplit] at hd
  exact Option.some.inj hd ▸ distinct_copySources _ _ _ (distinct_afterMixins mixins (hspecs f hf))

/-- A field has different directives at the turn of any other one. -/
theorem distinct_stateAt {mixins merged earlier later : Entries Directives}
    (hmerged : ∀ {n d}, merged.lookup n = some d → d.Distinct) (hlater : ∀ e ∈ later, e.2.Distinct)
    {n : Value} {d : Directives} (hd : stateAt table mixins merged earlier later n = some d) :
    d.Distinct := by
  unfold stateAt at hd
  split at hd
  · exact hmerged hd
  · obtain ⟨spec, hspec, rfl⟩ := Option.map_eq_some_iff.1 hd
    obtain ⟨l, hl, -⟩ := Entries.exists_mem_of_lookup hspec
    exact distinct_afterMixins mixins (hlater _ hl)

/-! ## Contributions -/

/-- The values that the declaration of a field and its mixins give a directive. -/
def ownValues (table : DirectiveTable) (mixins : Entries Directives) (k : Value) (spec : Directives) :
    List Value :=
  (ownContributors table mixins spec).flatMap fun d => (d.lookup k).toList

/-- The values that a directive has been given once the sources of a field have been copied, too, if it may
stand in a mixin. A field that is a source of its own gives what it has by then. -/
def withSources (name k : Value) (state : Value → Option Directives) : List Value → List Value → List Value
  | [], vs => vs
  | source :: rest, vs =>
    let given := if name.key? = source.key? then combined vs else (state source).bind (·.lookup k)
    withSources name k state rest (vs ++ given.toList)

/-- The values that a directive of a field is given, in the order of the contributors: its declaration, its
mixins and its sources, each as it stands at the turn of the field. -/
def contributed (table : DirectiveTable) (mixins merged earlier later : Entries Directives) (name : Value)
    (spec : Directives) (k : Value) : List Value :=
  if eligible table .mixin k then
    withSources name k (stateAt table mixins merged earlier later)
      (listed (accepted table .field spec) "mixin_field") (ownValues table mixins k spec)
  else ownValues table mixins k spec

/-- After its mixins a field has what they and its declaration give it. -/
theorem lookup_afterMixins_multiple (hk : Multiple table k) {mixins : Entries Directives}
    (hmixins : ∀ e ∈ mixins, e.2.Distinct) (spec : Directives) :
    (afterMixins table mixins spec).lookup k = combined (ownValues table mixins k spec) := by
  have hown : (accepted table .field spec).lookup k =
      combined ((accepted table .field spec).lookup k).toList := by
    cases (accepted table .field spec).lookup k <;> rfl
  unfold afterMixins mixedIn ownValues ownContributors
  rw [filterMap_lookup_accepted, lookup_foldl_merge_multiple hk _ hown, List.flatMap_cons]
  · intro d hd
    obtain ⟨m, hm, rfl⟩ := List.mem_map.1 hd
    obtain ⟨name, -, hname⟩ := List.mem_filterMap.1 hm
    obtain ⟨l, hl, -⟩ := Entries.exists_mem_of_lookup hname
    exact distinct_accepted .mixin (hmixins _ hl)

/-- After copying its sources a field has what they give it as well. -/
theorem lookup_copySources_multiple (hk : Multiple table k) (hname : (Value.str "name").key? ≠ k.key?)
    (hlabel : (Value.str "label").key? ≠ k.key?) {name : Value} {state : Value → Option Directives}
    (hstate : ∀ {n e}, state n = some e → e.Distinct) (sources : List Value) :
    ∀ {d : Directives} {vs : List Value}, d.Distinct → d.lookup k = combined vs →
      (copySources table name state sources d).lookup k =
        combined (if eligible table .mixin k then withSources name k state sources vs else vs) := by
  induction sources with
  | nil =>
    intro d vs _ hd
    rw [withSources, ite_self]
    exact hd
  | cons source rest ih =>
    intro d vs hdistinct hd
    rw [copySources, withSources]
    have hcopy : ∀ {e : Directives}, e.Distinct →
        (copySources table name state rest (copyField table d e)).lookup k =
          combined (if eligible table .mixin k then
            withSources name k state rest (vs ++ (e.lookup k).toList) else vs) := by
      intro e he
      rw [ih (distinct_copyField hdistinct e) (lookup_copyField_multiple hk hname hlabel he hd)]
      split
      · rfl
      · rw [List.append_nil]
    by_cases hkey : name.key? = source.key?
    · rw [if_pos hkey, if_pos hkey, ← hd]
      exact hcopy hdistinct
    · rw [if_neg hkey, if_neg hkey]
      cases hsource : state source with
      | none =>
        dsimp only
        rw [ih hdistinct hd, Option.bind_none, Option.toList_none, List.append_nil]
      | some e => exact hcopy (hstate hsource)

/-- What has been contributed is found in what the contributors have made of it, maybe in another form. -/
theorem exists_of_combined {vs : List Value} {x w : Value} (hx : x ∈ vs.flatMap Value.toList)
    (hw : combined vs = some w) : ∃ y ∈ w.toList, y.key? = x.key? := by
  match vs with
  | [] => cases hx
  | [v] =>
    obtain rfl := Option.some.inj hw
    rw [List.flatMap_cons, List.flatMap_nil, List.append_nil] at hx
    exact ⟨x, hx, rfl⟩
  | v :: v' :: rest =>
    obtain rfl := Option.some.inj hw
    have hany : (Value.unique ((v :: v' :: rest).flatMap Value.toList)).any x.same = true :=
      Report.any_addAll hx []
    obtain ⟨y, hy, hsame⟩ := List.any_eq_true.1 hany
    exact ⟨y, hy, (Value.key?_eq_of_same hsame).symm⟩

/-- Without the shorter spelling of the filter list, the longer one has the filters of both. -/
theorem lookup_joinFilters_filters (d : Directives) :
    (joinFilters d).lookup (.str "filter") = none ∧ (joinFilters d).lookup (.str "filters") =
      some (.list (Value.unique (listed d "filters" ++ listed d "filter"))) := by
  have hne : (Value.str "filters").key? ≠ (Value.str "filter").key? := by decide
  unfold joinFilters
  constructor
  · rw [Entries.lookup_insert, if_neg hne, Entries.lookup_erase, if_pos rfl]
  · rw [Entries.lookup_insert, if_pos rfl]

/-- Whatever is contributed to the filters under one of the two spellings is in the list that is made of
both. -/
theorem exists_filter {d : Directives} {key : String} {vs : List Value}
    (hd : d.lookup (.str key) = combined vs) {x : Value} (hx : x ∈ vs.flatMap Value.toList) :
    ∃ y ∈ listed d key, y.key? = x.key? := by
  cases hw : combined vs with
  | none =>
    match vs with
    | [] => cases hx
    | [_] => cases hw
    | _ :: _ :: _ => cases hw
  | some w =>
    unfold listed
    rw [hd, hw]
    exact exists_of_combined hx hw

/-- Every filter that is contributed under one of the two spellings is once in the list of the longer one. -/
theorem countP_joinFilters {d : Directives} {long short : List Value}
    (hlong : d.lookup (.str "filters") = combined long) (hshort : d.lookup (.str "filter") = combined short)
    {x : Value} (hx : x ∈ (long ++ short).flatMap Value.toList) (hkey : x.isKey = true) :
    (listed (joinFilters d) "filters").countP (fun y => y.key? = x.key?) = 1 := by
  obtain ⟨y, hy, hsame⟩ : ∃ y ∈ listed d "filters" ++ listed d "filter", y.key? = x.key? := by
    rw [List.flatMap_append] at hx
    rcases List.mem_append.1 hx with hx | hx
    · obtain ⟨y, hy, hsame⟩ := exists_filter hlong hx
      exact ⟨y, List.mem_append_left _ hy, hsame⟩
    · obtain ⟨y, hy, hsame⟩ := exists_filter hshort hx
      exact ⟨y, List.mem_append_right _ hy, hsame⟩
  have hlist : listed (joinFilters d) "filters" =
      Value.unique (listed d "filters" ++ listed d "filter") := by
    rw [listed, (lookup_joinFilters_filters d).2]
    rfl
  rw [hlist, ← hsame]
  exact Value.countP_unique hy (by rw [Value.isKey, hsame]; exact hkey)

/-- In a field that is merged a directive that holds several values has what the values of all contributors
make, and in the resolved field there is one list of filters, with every filter that is contributed once. -/
theorem lookup_resolve_multiple {fields mixins resolved mixins' : Entries Directives} {s t : Journal}
    (hsource : eligible table .mixin (.str "mixin_field") = false)
    (hfilter : Multiple table (.str "filter")) (hfilters : Multiple table (.str "filters"))
    (hfields : fields.Distinct) (hspecs : ∀ e ∈ fields, e.2.Distinct) (hmixins : ∀ e ∈ mixins, e.2.Distinct)
    (h : (resolve table policy (.dict (fields.mapValues .dict))
      (.dict (mixins.mapValues .dict))).run s = (.ok (resolved, mixins'), t)) :
    resolved.keys = fields.keys ∧ ∃ merged : Entries Directives,
      ∀ (earlier later : Entries Directives) (name : Value) (spec : Directives),
        fields = earlier ++ (name, spec) :: later →
          let values := contributed table mixins merged earlier ((name, spec) :: later) name spec
          ∃ m d, merged.lookup name = some m ∧ resolved.lookup name = some d ∧
            (∀ k, Multiple table k → (Value.str "name").key? ≠ k.key? →
              (Value.str "label").key? ≠ k.key? → m.lookup k = combined (values k)) ∧
            (∀ k, (Value.str "filter").key? ≠ k.key? → (Value.str "filters").key? ≠ k.key? →
              d.lookup k = m.lookup k) ∧
            d.lookup (.str "filter") = none ∧
            d.lookup (.str "filters") =
              some (.list (Value.unique (listed m "filters" ++ listed m "filter"))) ∧
            ∀ x ∈ (values (.str "filters") ++ values (.str "filter")).flatMap Value.toList,
              x.isKey = true → (listed d "filters").countP (fun y => y.key? = x.key?) = 1 := by
  obtain ⟨merged, rfl, hkeys, hturn⟩ := resolve_eq hsource hfields h
  refine ⟨by rw [Entries.keys_mapValues, hkeys], merged, ?_⟩
  intro earlier later name spec hsplit values
  have hspecs' : ∀ e ∈ (name, spec) :: later, e.2.Distinct :=
    fun e he => hspecs e (hsplit ▸ List.mem_append_right _ he)
  obtain ⟨m, hm, hmultiple⟩ : ∃ m, merged.lookup name = some m ∧ ∀ k, Multiple table k →
      (Value.str "name").key? ≠ k.key? → (Value.str "label").key? ≠ k.key? →
        m.lookup k = combined (values k) :=
    ⟨_, hturn earlier later name spec hsplit, fun k hk hname hlabel =>
      lookup_copySources_multiple hk hname hlabel
        (distinct_stateAt (hturn.distinct hkeys hspecs) hspecs') _
        (distinct_afterMixins mixins (hspecs' _ List.mem_cons_self))
        (lookup_afterMixins_multiple hk hmixins spec)⟩
  have hjoined : (merged.mapValues joinFilters).lookup name = some (joinFilters m) := by
    rw [Entries.lookup_mapValues, hm]
    rfl
  obtain ⟨hgone, hlist⟩ := lookup_joinFilters_filters m
  exact ⟨m, joinFilters m, hm, hjoined, hmultiple, fun k hk hk' => lookup_joinFilters hk hk' m, hgone, hlist,
    fun x hx hkey => countP_joinFilters (hmultiple (.str "filters") hfilters (by decide) (by decide))
      (hmultiple (.str "filter") hfilter (by decide) (by decide)) hx hkey⟩

/-- Filters in both spellings: the first field has one of its own, one from a mixin, and those of the second
field and of itself. -/
def trimmed : Entries Directives :=
  [(.str "a", [(.str "filters", .str "trim"), (.str "mixin", .list [.str "m", .str "none"]),
      (.str "mixin_field", .tuple [.str "b", .str "a"])]),
    (.str "b", [(.str "filter", .list [.str "lower", .str "trim"]), (.str "filters", .str "upper")])]

/-- The mixin of the first field. -/
def trimmedMixins : Entries Directives :=
  [(.str "m", [(.str "filters", .list [.str "upper", .str "trim"]), (.str "filter", .str "digits")])]

/-- What the first field gathers, each filter once. -/
theorem lookup_resolve_multiple_trimmed :
    ∃ resolved mixins' t,
      (resolve .builtin { ignoreUnknown := true } (.dict (trimmed.mapValues .dict))
        (.dict (trimmedMixins.mapValues .dict))).run {} = (.ok (resolved, mixins'), t) ∧
      ∃ d, resolved.lookup (.str "a") = some d ∧ d.lookup (.str "filter") = none ∧
        d.lookup (.str "filters") =
          some (.list [.str "trim", .str "upper", .str "digits", .str "lower"]) ∧
        (listed d "filters").countP (fun y => y.key? = (Value.str "trim").key?) = 1 := by
  refine ⟨_, _, _, rfl, ?_⟩
  have hfilter : Multiple .builtin (.str "filter") := ⟨_, rfl, rfl⟩
  have hfilters : Multiple .builtin (.str "filters") := ⟨_, rfl, rfl⟩
  obtain ⟨-, merged, hfields⟩ := @lookup_resolve_multiple .builtin { ignoreUnknown := true } trimmed
    trimmedMixins _ _ {} _ (by decide) hfilter hfilters (by decide) (by decide) (by decide) rfl
  obtain ⟨m, d, -, hd, hvalues, -, hgone, hjoined, hall⟩ := hfields [] [_] (.str "a") _ rfl
  have hshort : m.lookup (.str "filter") = some (.list [.str "digits", .str "lower", .str "trim"]) :=
    (hvalues (.str "filter") hfilter (by decide) (by decide)).trans rfl
  have hlong : m.lookup (.str "filters") = some (.list [.str "trim", .str "upper"]) :=
    (hvalues (.str "filters") hfilters (by decide) (by decide)).trans rfl
  refine ⟨d, hd, hgone, ?_, hall (.str "trim") List.mem_cons_self rfl⟩
  rw [hjoined, listed, listed, hshort, hlong]
  rfl

end Merge

end ParamCheck
