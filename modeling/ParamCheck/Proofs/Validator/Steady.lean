import ParamCheck.Proofs.Nested.Sharing
import ParamCheck.Proofs.Validator.Child

/-!
# Reading the parameters in nested form

The links of a validator fit its parameters, whatever has been done with it (`Validator.Reachable.fits`). So
reading the parameters in nested form leaves them alone and gives the same answer every time, if the path of
no container among them begins that of another parameter (`Validator.nestedParams_steady`). Parameters that
have been flattened are of this kind (`DelimiterOptions.unentangled_flatten`).
-/

namespace ParamCheck

namespace Validator

variable {hooks : Hooks} {v w : Validator}

/-! ## Links of validators -/

/-- What is found at a key that is not to be filtered is found there afterwards. -/
theorem lookup_writeBack_of_absent {filtered : Entries Value} {k : Value} :
    ∀ {params : Entries Value}, (∀ key ∈ filtered.keys, key.key? ≠ k.key?) →
      (writeBack params filtered).lookup k = params.lookup k := by
  induction filtered with
  | nil => exact fun _ => rfl
  | cons e rest ih =>
    intro params hkeys
    obtain ⟨hkey, hrest⟩ := List.forall_mem_cons.1 hkeys
    show (writeBack (if params.contains e.1 then params.insert e.1 e.2 else params) rest).lookup k = _
    rw [ih hrest]
    split
    · rw [Entries.lookup_insert, if_neg hkey]
    · rfl

/-- A new validator has the parameters in flat form, and no links. -/
theorem params_create {options : Options} {params : Value} {d : Declarations}
    (h : (create options params d).1 = .ok v) :
    flatParams options.delimiters (orEmpty params) = .ok v.params ∧ v.sharing = {} := by
  obtain ⟨journal, hbuild⟩ : ∃ journal, Returns (build options params d) {} v journal :=
    ⟨_, Prod.ext h rfl⟩
  rw [build] at hbuild
  simp only [Returns.bind_iff, Returns.pure_iff, Returns.liftM_iff, Returns.get_iff] at hbuild
  obtain ⟨flat, _, ⟨hflat, -⟩, _, _, -, _, _, -, _, _, -, _, _, -, rfl, -⟩ := hbuild
  exact ⟨hflat, rfl⟩

/-- The links of a child fit its parameters. -/
theorem fits_child {catalogue : Catalogue} {name : Value} (hv : v.Consistent)
    (h : v.sharing.Fits v.params) (hchild : (v.child catalogue name).1 = .ok w) :
    w.sharing.Fits w.params := by
  unfold Validator.child at hchild
  split at hchild
  · cases hchild
  · split at hchild
    · obtain ⟨built, hbuilt, hlinked⟩ := bind_eq_ok_iff.1 hchild
      dsimp only at hlinked
      split at hlinked
      · next hnested =>
        obtain ⟨sharing, hsharing, hw⟩ := bind_eq_ok_iff.1 hlinked
        obtain rfl := Except.ok.inj hw
        -- The child has been created with the parameters in flat form.
        obtain ⟨hflat, -⟩ := params_create hbuilt
        rw [orEmpty_dict, flatParams, if_pos hnested] at hflat
        exact h.flatten hv.params_distinct hsharing hflat
      · obtain rfl := Except.ok.inj hlinked
        exact .empty _ _ _
    · cases hchild

/-- Recording a message leaves the parameters and the links alone. -/
theorem fits_recordError (h : v.sharing.Fits v.params) (name message : Value) :
    (v.recordError name message).2.sharing.Fits (v.recordError name message).2.params := by
  unfold Validator.recordError
  split
  · exact h
  · split <;> exact h

/-- A parameter that is set is not linked. -/
theorem fits_setParam (h : v.sharing.Fits v.params) {name value : Value}
    (hset : v.setParam name value = .ok w) : w.sharing.Fits w.params := by
  unfold Validator.setParam at hset
  split at hset
  · obtain rfl := Except.ok.inj hset
    refine h.forgetAll [name] fun k hk => ?_
    rw [Entries.lookup_insert, if_neg (hk name List.mem_cons_self)]
  · cases hset

/-- A parameter that is removed is not linked. -/
theorem fits_dropParam (h : v.sharing.Fits v.params) {name : Value}
    (hdrop : v.dropParam name = .ok w) : w.sharing.Fits w.params := by
  unfold Validator.dropParam at hdrop
  split at hdrop
  · obtain rfl := Except.ok.inj hdrop
    refine h.forgetAll [name] fun k hk => ?_
    rw [Entries.lookup_erase, if_neg (hk name List.mem_cons_self)]
  · cases hdrop

/-- The links fit after effects on a field. -/
theorem fits_perform (name : Value) (effects : List Effect) :
    ∀ {v : Validator}, v.sharing.Fits v.params →
      (perform name effects v).2.sharing.Fits (perform name effects v).2.params := by
  induction effects with
  | nil => exact fun h => h
  | cons e rest ih =>
    intro v h
    -- Messages are recorded alike against the field and against others.
    have hrecord : ∀ field message : Value,
        (perform name (.recordFor field message :: rest) v).2.sharing.Fits
          (perform name (.recordFor field message :: rest) v).2.params := by
      intro field message
      have hrecord := fits_recordError h field message
      rw [perform]
      split
      · next w hw =>
        rw [hw] at hrecord
        exact ih hrecord
      · next e w hw =>
        rw [hw] at hrecord
        exact hrecord
    cases e with
    | record message => exact hrecord name message
    | recordFor field message => exact hrecord field message
    | setParam key value =>
      rw [perform]
      split
      · next w hw => exact ih (fits_setParam h hw)
      · exact h
    | dropParam key =>
      rw [perform]
      split
      · next w hw => exact ih (fits_dropParam h hw)
      · exact h

/-- The links fit after a check that is called outside a run. -/
theorem fits_callCheck (h : v.sharing.Fits v.params) (check : Check) (argument value : Value) (f : Field) :
    (v.callCheck hooks check argument value f).2.sharing.Fits
      (v.callCheck hooks check argument value f).2.params := by
  have hperform := fits_perform f.name (check.script hooks argument value f v.view).effects h
  unfold Validator.callCheck
  dsimp only
  split
  · next w hw =>
    rw [hw] at hperform
    exact hperform
  · next e w hw =>
    rw [hw] at hperform
    exact hperform

/-- The links fit after a run: what it writes back is forgotten. -/
theorem fits_validate (hv : v.Consistent) (h : v.sharing.Fits v.params) (targets : List Value) :
    (v.validate hooks targets).validator.sharing.Fits (v.validate hooks targets).validator.params := by
  have hreset : v.resetFields.sharing.Fits v.params := ⟨h.plain, h.within⟩
  obtain ⟨run, hparams, hsharing⟩ : ∃ run : Run,
      (v.validate hooks targets).validator.params = writeBack v.params run.filtered ∧
        (v.validate hooks targets).validator.sharing =
          sharingAfter v.resetFields.sharing v.params run := ⟨_, rfl, rfl⟩
  have hheld : (if run.held.isEmpty then v.resetFields.sharing
      else v.resetFields.sharing.hold v.params run.held).Fits v.params := by
    split
    · exact hreset
    · have henrolled := hreset.enroll hv.params_distinct
      exact ⟨henrolled.plain, henrolled.within⟩
  rw [hparams, hsharing]
  exact hheld.forgetAll run.filtered.keys fun k hk => lookup_writeBack_of_absent hk

/-- The links of every validator that can be had fit its parameters. -/
theorem Reachable.fits (h : Reachable hooks v) : v.sharing.Fits v.params := by
  induction h with
  | create hparams hfields h =>
    rw [(params_create h).2]
    exact .empty _ _ _
  | child hcatalogue hv h ih => exact fits_child hv.consistent ih h
  | validate targets hv ih => exact fits_validate hv.consistent ih targets
  | recordError name message hv ih => exact fits_recordError ih name message
  | callCheck check argument value f hv ih => exact fits_callCheck ih check argument value f
  | resetErrors hv ih => exact ih
  | resetFields hv ih => exact ⟨ih.plain, ih.within⟩
  | reset hv ih => exact ⟨ih.plain, ih.within⟩
  | enqueue names hv ih => exact ih
  | setParam hv h ih => exact fits_setParam ih h
  | setParams hparams hv h ih =>
    obtain ⟨flat, -, hw⟩ := bind_eq_ok_iff.1 h
    obtain rfl := Except.ok.inj hw
    exact .empty _ _ _
  | setNestedParams hv h ih =>
    obtain ⟨flat, -, hw⟩ := bind_eq_ok_iff.1 h
    obtain rfl := Except.ok.inj hw
    exact .empty _ _ _
  | @nestedParams v hv ih => exact ih.build hv.consistent.params_distinct v.options.delimiters

/-! ## Reading again and again -/

/-- Reading the parameters in nested form leaves them alone and answers alike every time. -/
def Steady (v : Validator) : Prop :=
  ∀ n, let w := (fun u : Validator => u.nestedParams.2)^[n] v
    w.params = v.params ∧ w.nestedParams.1 = v.nestedParams.1

/-- Reading the parameters in nested form leaves them alone and gives the data that are built of them, if no
path of a container begins another one. -/
theorem nestedParams_of_unentangled (hv : Reachable hooks v)
    (hpaths : Sharing.Unentangled v.options.delimiters v.params) :
    v.nestedParams.2.params = v.params ∧
      v.nestedParams.1 = v.options.delimiters.unflatten (.dict v.params) :=
  Sharing.build_of_unentangled hv.fits hv.consistent.params_distinct hpaths

/-- A validator in whose parameters no path of a container begins another one is steady. -/
theorem steady_of_unentangled (hv : Reachable hooks v)
    (hpaths : Sharing.Unentangled v.options.delimiters v.params) : v.Steady := by
  have hread : ∀ n, let w := (fun u : Validator => u.nestedParams.2)^[n] v
      Reachable hooks w ∧ w.options = v.options ∧ w.params = v.params := by
    intro n
    induction n with
    | zero => exact ⟨hv, rfl, rfl⟩
    | succ n ih =>
      obtain ⟨hreachable, hoptions, hparams⟩ := ih
      rw [Function.iterate_succ_apply']
      refine ⟨hreachable.nestedParams, hoptions, ?_⟩
      have hsame := (nestedParams_of_unentangled hreachable (by rwa [hoptions, hparams])).1
      exact hsame.trans hparams
  intro n
  obtain ⟨hreachable, hoptions, hparams⟩ := hread n
  have hdata := (nestedParams_of_unentangled hreachable (by rwa [hoptions, hparams])).2
  refine ⟨hparams, hdata.trans ?_⟩
  rw [hoptions, hparams, (nestedParams_of_unentangled hv hpaths).2]

/-- With the standard delimiters a validator is steady if no path of a container among its parameters begins
that of another one, and so it is after it has been given nested data. -/
theorem nestedParams_steady (hv : Reachable hooks v) (ho : v.options.delimiters = .standard) :
    (Sharing.Unentangled .standard v.params → v.Steady) ∧
      ∀ {entries : Entries Value} {w : Validator}, Value.Nested (.dict entries) →
        v.setNestedParams (.dict entries) = .ok w →
          Sharing.Unentangled .standard w.params ∧ w.Steady := by
  constructor
  · intro hpaths
    exact steady_of_unentangled hv (ho ▸ hpaths)
  · intro entries w hx hw
    have hreachable : Reachable hooks w := .setNestedParams hv hw
    obtain ⟨flat, hflat, hw⟩ := bind_eq_ok_iff.1 hw
    obtain rfl := Except.ok.inj hw
    rw [ho] at hflat
    have hpaths : Sharing.Unentangled .standard flat :=
      DelimiterOptions.unentangled_flatten (by decide) hx hflat
    exact ⟨hpaths, steady_of_unentangled hreachable (ho ▸ hpaths)⟩

/-- A list that a later key goes into changes when the parameters are read. -/
example : ({ parent with params := [(.str "tags", .list []), (.str "tags:0", .str "new")] } : Validator)
    |>.nestedParams.2.params.lookup (.str "tags") |>.any (·.same (.list [.str "new"])) := by decide +kernel

/-- A validator with a list of tags among its parameters. -/
def parentWithTags : Validator :=
  { parent with params := parent.params.insert (.str "user.tags") (.list [.str "new", .null]) }

/-- The list is set. -/
theorem reachable_parentWithTags : Reachable .none parentWithTags := by
  have hset : parent.setParam (.str "user.tags") (.list [.str "new", .null]) = .ok parentWithTags := rfl
  exact reachable_parent.setParam hset

/-- The path of the list begins no other one, and no path does after the parameters have been set to nested
data with a point in a key and with empty containers. -/
theorem nestedParams_steady_parentWithTags :
    parentWithTags.options.delimiters = .standard ∧
      Sharing.Unentangled .standard parentWithTags.params ∧ parentWithTags.Steady ∧
      ∃ w, parentWithTags.setNestedParams
        (.dict [(.str "a", .list []), (.str "a.", .list [.null, .dict []])]) = .ok w ∧ w.Steady := by
  obtain ⟨hsteady, hnested⟩ := nestedParams_steady reachable_parentWithTags rfl
  have hpaths : ∀ e ∈ parentWithTags.params, e.2.isContainer = true → ∀ f ∈ parentWithTags.params,
      (DelimiterOptions.standard.path e.1).begins (DelimiterOptions.standard.path f.1) = false := by
    decide +kernel
  have hunentangled : Sharing.Unentangled .standard parentWithTags.params := by
    intro e he hcontainer p hp f hf
    rw [← hp.path_eq]
    exact hpaths e he hcontainer f hf
  have hlist : Value.Nested (.list []) := .list (Nat.zero_le _) nofun
  have hitems : Value.Nested (.list [.null, .dict []]) :=
    .list (by decide) (by simpa using ⟨.scalar rfl, .dict nofun List.Pairwise.nil nofun⟩)
  have hx : Value.Nested (.dict [(.str "a", .list []), (.str "a.", .list [.null, .dict []])]) :=
    .dict (by simp) (by decide) (by simpa using ⟨hlist, hitems⟩)
  exact ⟨rfl, hunentangled, hsteady hunentangled, _, rfl, (hnested hx rfl).2⟩

end Validator

end ParamCheck
