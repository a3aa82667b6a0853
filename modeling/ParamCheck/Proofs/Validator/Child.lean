import ParamCheck.Proofs.Nested.Settled
import ParamCheck.Proofs.Validator.Freshness
import ParamCheck.Proofs.Validator.Reachable

/-!
# The parameters of children

A child is created with the parameters of its parent, so that these are taken for nested data once
more: if one of them is a container, which an empty list or mapping still is after flattening, all of
them are flattened again, and the marks in their keys are escaped. The child has the parameters of its
parent exactly when none of them is a container or all of them are flat already
(`Validator.child_params_iff`).
-/

namespace ParamCheck

/-- A mapping is not nested if none of its values is a container. -/
theorem Entries.isNested_eq_false_iff {entries : Entries Value} :
    entries.isNested = false ↔ ∀ e ∈ entries, e.2.isContainer = false := by
  unfold Entries.isNested
  rw [List.any_eq_false]
  simp

namespace Validator

/-! ## Creation with parameters -/

/-- Parameters are kept as they are if none of them is a container. -/
theorem flatParams_of_scalars {o : DelimiterOptions} {params : Entries Value}
    (h : ∀ e ∈ params, e.2.isContainer = false) : flatParams o (.dict params) = .ok params := by
  unfold flatParams
  simp only [Entries.isNested_eq_false_iff.2 h, Bool.false_eq_true, if_false]

/-- Parameters are flattened if one of them is a container. -/
theorem flatParams_of_isNested {o : DelimiterOptions} {params : Entries Value}
    (h : params.isNested = true) : flatParams o (.dict params) = o.flatten (.dict params) := by
  unfold flatParams
  simp only [h, if_true]

/-- A mapping is created from as it is. -/
theorem orEmpty_dict (entries : Entries Value) : orEmpty (.dict entries) = .dict entries := by
  unfold orEmpty
  cases entries with
  | nil => rfl
  | cons e rest => rfl

/-- Declarations that are resolved without parameters are resolved alike with any that can be
kept. -/
theorem create_of_flatParams {options : Options} {params flat : Entries Value} {d : Declarations}
    {w : Validator} (hflat : flatParams options.delimiters (.dict params) = .ok flat)
    (h : (create options (.dict []) d).1 = .ok w) :
    (create options (.dict params) d).1 = .ok { w with params := flat } := by
  have hbuild : Returns (build options (.dict []) d) {} w _ := Prod.ext h rfl
  obtain ⟨j, hnew⟩ : ∃ j,
      Returns (build options (.dict params) d) {} { w with params := flat } j := by
    rw [build] at hbuild ⊢
    simp only [Returns.bind_iff, Returns.pure_iff, Returns.liftM_iff, Returns.get_iff,
      orEmpty_dict] at hbuild ⊢
    obtain ⟨_, _, ⟨-, rfl⟩, r, u, hresolve, _, w, hfilters, aliases, _, ⟨haliases, rfl⟩,
      journal, _, ⟨rfl, rfl⟩, rfl, hj⟩ := hbuild
    exact ⟨_, flat, _, ⟨hflat, rfl⟩, r, u, hresolve, _, w, hfilters, aliases, _, ⟨haliases, rfl⟩,
      _, _, ⟨rfl, rfl⟩, rfl, hj⟩
  exact congrArg Prod.fst hnew

/-- Nothing is created with parameters that cannot be kept. -/
theorem create_of_flatParams_error {options : Options} {params : Entries Value} {d : Declarations}
    {e : Fault} (hflat : flatParams options.delimiters (.dict params) = .error e) :
    (create options (.dict params) d).1 = .error e := by
  have hbuild : (build options (.dict params) d).run {} = (.error e, {}) := by
    rw [build, orEmpty_dict, hflat]
    rfl
  exact congrArg Prod.fst hbuild

/-- With marks that are texts the containers of parameters can be followed through flattening. -/
theorem sharing_flatten {o : DelimiterOptions} {d : Delimiters} (hd : o.delimiters? = some d)
    (s : Sharing) (params : Entries Value) : ∃ sharing, s.flatten o params = .ok sharing := by
  have hspell : ∀ path,
      o.spell path = (pure (String.ofList (d.spell path)) : Except Fault String) := by
    intro path
    unfold DelimiterOptions.spell
    rw [hd]
    rfl
  unfold Sharing.flatten
  simp only [hspell, pure_bind, List.mapM_pure]
  exact ⟨_, rfl⟩

/-! ## Children -/

section

variable {hooks : Hooks} {v w : Validator} {catalogue : Catalogue} {profile : Profile} {name : Value}
  {place : Nat} (hname : name.isKey = true) (hplace : v.children.lookup name = some place)
  (hprofile : catalogue[place]? = some profile)
  (hbuild : (profile.build v.options (.dict [])).1 = .ok w)

include hname hplace hprofile hbuild

/-- A child whose declarations can be resolved has the parameters of its parent as they are kept. -/
theorem child_of_flatParams {flat : Entries Value}
    (hflat : flatParams v.options.delimiters (.dict v.params) = .ok flat)
    (hsharing : Entries.isNested v.params = true →
      ∃ sharing, v.sharing.flatten v.options.delimiters v.params = .ok sharing) :
    ∃ sharing, (v.child catalogue name).1 = .ok { w with params := flat, sharing } := by
  have hcreate : (profile.build v.options (.dict v.params)).1 = .ok { w with params := flat } :=
    create_of_flatParams hflat hbuild
  unfold Validator.child
  simp only [hname, hplace, hprofile, Bool.not_true, Bool.false_eq_true, if_false,
    Option.bind_some]
  rw [hcreate]
  by_cases hnested : Entries.isNested v.params = true
  · obtain ⟨sharing, hs⟩ := hsharing hnested
    simp only [hnested, if_true, hs]
    exact ⟨sharing, rfl⟩
  · simp only [hnested]
    exact ⟨{}, rfl⟩

omit hbuild in
/-- A child can only be had if the parameters of its parent can be kept. -/
theorem child_of_flatParams_error {e : Fault}
    (hflat : flatParams v.options.delimiters (.dict v.params) = .error e) :
    (v.child catalogue name).1 = .error e := by
  have hcreate : (profile.build v.options (.dict v.params)).1 = .error e :=
    create_of_flatParams_error hflat
  unfold Validator.child
  simp only [hname, hplace, hprofile, Bool.not_true, Bool.false_eq_true, if_false,
    Option.bind_some]
  rw [hcreate]
  rfl

/-- If the declarations of a registered child can be resolved, a child that can be had is what they
are resolved to, with parameters. These are the ones of its parent if none of them is a container. If
the marks are texts, the child can be had exactly when none of the parameters is a container or all
keys in them can be written, and it has the parameters of its parent exactly when none of them is a
container or all of them are flat: when the containers are empty and no mark occurs in any key. -/
theorem child_params_iff (hv : Reachable hooks v) :
    ((∀ e ∈ v.params, e.2.isContainer = false) →
      ∃ sharing, (v.child catalogue name).1 = .ok { w with params := v.params, sharing }) ∧
    ∀ d, v.options.delimiters.delimiters? = some d →
      ((∃ params sharing, (v.child catalogue name).1 = .ok { w with params, sharing }) ↔
        (∀ e ∈ v.params, e.2.isContainer = false) ∨ (Value.dict v.params).keysWritable = true) ∧
      ((∃ sharing, (v.child catalogue name).1 = .ok { w with params := v.params, sharing }) ↔
        (∀ e ∈ v.params, e.2.isContainer = false) ∨ ∀ e ∈ v.params, d.Flat e) := by
  have hscalars : (∀ e ∈ v.params, e.2.isContainer = false) →
      ∃ sharing, (v.child catalogue name).1 = .ok { w with params := v.params, sharing } := by
    intro h
    refine child_of_flatParams hname hplace hprofile hbuild (flatParams_of_scalars h) fun hnested => ?_
    cases (Entries.isNested_eq_false_iff.2 h).symm.trans hnested
  refine ⟨hscalars, fun d hd => ?_⟩
  by_cases h : ∀ e ∈ v.params, e.2.isContainer = false
  · obtain ⟨sharing, hchild⟩ := hscalars h
    exact ⟨iff_of_true ⟨v.params, sharing, hchild⟩ (.inl h), iff_of_true ⟨sharing, hchild⟩ (.inl h)⟩
  · -- The parameters are flattened once more.
    have hnested : v.params.isNested = true := by
      rw [← Bool.not_eq_false, Entries.isNested_eq_false_iff]
      exact h
    have hflatParams := flatParams_of_isNested (o := v.options.delimiters) hnested
    cases hkeys : (Value.dict v.params).keysWritable with
    | false =>
      have hflat : v.options.delimiters.flatten (.dict v.params) = .error .badValue := by
        rw [DelimiterOptions.flatten, hkeys]
        rfl
      have hchild := child_of_flatParams_error hname hplace hprofile (hflatParams.trans hflat)
      have hnotflat : ¬∀ e ∈ v.params, d.Flat e := by
        intro hall
        rw [Delimiters.keysWritable_of_flat hall] at hkeys
        cases hkeys
      rw [hchild]
      refine ⟨iff_of_false (by rintro ⟨_, _, hok⟩; cases hok) ?_,
        iff_of_false (by rintro ⟨_, hok⟩; cases hok) (not_or.2 ⟨h, hnotflat⟩)⟩
      rintro (hno | hyes)
      · exact h hno
      · cases hyes
    | true =>
      have hflat := hflatParams.trans (DelimiterOptions.flatten_dict hd hkeys)
      obtain ⟨sharing, hchild⟩ := child_of_flatParams hname hplace hprofile hbuild hflat
        fun _ => sharing_flatten hd v.sharing v.params
      have hflatten : d.flatten v.params = v.params ↔ ∀ e ∈ v.params, d.Flat e :=
        Delimiters.flatten_eq_self_iff hv.consistent.params_distinct
      refine ⟨iff_of_true ⟨_, sharing, hchild⟩ (.inr rfl), ?_, ?_⟩
      · rintro ⟨_, hsame⟩
        have hparams := congrArg Validator.params (Except.ok.inj (hchild.symm.trans hsame))
        exact .inr (hflatten.1 hparams)
      · rintro (hno | hall)
        · exact absurd hno h
        · rw [hflatten.2 hall] at hchild
          exact ⟨sharing, hchild⟩

end

/-- Profiles of which the only one declares a field. -/
def addressBook : Catalogue := [{ name := "address", fields := [(.str "zip", .dict [])] }]

/-- A validator with a child and with a flat parameter. -/
def parent : Validator where
  options := {}
  directives := .builtin
  filters := .builtin
  children := [(.str "address", 0)]
  mixins := []
  aliases := {}
  warnings := []
  fields := []
  params := [(.str "user.name", .str "x")]

/-- The validator with an empty list among its parameters. -/
def parentWithList : Validator :=
  { parent with params := parent.params.insert (.str "user.tags") (.list []) }

/-- The validator is created with its parameter. -/
theorem reachable_parent : Reachable .none parent :=
  @Reachable.create .none {} (.dict parent.params) { children := parent.children } parent
    (by unfold Value.KeysDiffer; decide) (by unfold Value.KeysDiffer; decide) rfl

/-- The list is set. -/
theorem reachable_parentWithList : Reachable .none parentWithList := by
  have hset : parent.setParam (.str "user.tags") (.list []) = .ok parentWithList := rfl
  exact reachable_parent.setParam hset

/-- The child of the validator has its parameter, but not any more once there is an empty list as well,
since a point is one of the marks. -/
theorem child_params_parent :
    (∃ w, (parent.child addressBook (.str "address")).1 = .ok w ∧ w.params = parent.params) ∧
      ∃ w, (parentWithList.child addressBook (.str "address")).1 = .ok w ∧
        w.params ≠ parentWithList.params := by
  have hplace : parent.children.lookup (.str "address") = some 0 := rfl
  obtain ⟨profile, hprofile⟩ : ∃ profile, addressBook[0]? = some profile := ⟨_, rfl⟩
  obtain ⟨w, hbuild⟩ : ∃ w, (profile.build {} (.dict [])).1 = .ok w := by
    obtain rfl := Option.some.inj hprofile
    exact ⟨_, rfl⟩
  obtain ⟨hscalars, -⟩ := child_params_iff rfl hplace hprofile hbuild reachable_parent
  obtain ⟨-, hmarks⟩ := child_params_iff (v := parentWithList) rfl hplace hprofile hbuild
    reachable_parentWithList
  obtain ⟨sharing, hchild⟩ := hscalars (by decide)
  obtain ⟨hhad, hsame⟩ := hmarks ⟨['.'], [':'], ['\\']⟩ rfl
  obtain ⟨params, sharing', hchild'⟩ := hhad.2 (.inr (by decide))
  have htags : (.str "user.tags", .list []) ∈ parentWithList.params :=
    List.mem_cons_of_mem _ List.mem_cons_self
  have huser : (.str "user.name", .str "x") ∈ parentWithList.params := List.mem_cons_self
  refine ⟨⟨_, hchild, rfl⟩, _, hchild', fun hparams => ?_⟩
  obtain rfl : params = parentWithList.params := hparams
  rcases hsame.1 ⟨sharing', hchild'⟩ with hno | hall
  · cases hno _ htags
  · obtain ⟨-, s, hs, hescape | hnone⟩ := hall _ huser
    · cases hescape
    · obtain rfl := Value.str.inj hs
      exact hnone ['.'] (by decide) (by decide)

/-- Children have the parameters of their parents. -/
def CopiesParams : Prop :=
  ∀ {hooks : Hooks} {v w : Validator} {catalogue : Catalogue} {name : Value}, Reachable hooks v →
    (v.child catalogue name).1 = .ok w → w.params = v.params

/-- A child can have other parameters than its parent: a point in a key has been escaped. -/
theorem not_copiesParams : ¬CopiesParams := by
  intro h
  have hkeys : ((parentWithList.child addressBook (.str "address")).1.toOption.map
      fun w => w.params.map (·.1.text)) = some ["user\\.name", "user\\.tags"] := by
    decide +kernel
  obtain ⟨w, hw, htexts⟩ := Option.map_eq_some_iff.1 hkeys
  rw [h reachable_parentWithList (ok_of_toOption hw)] at htexts
  exact absurd htexts (by decide)

end Validator

end ParamCheck
