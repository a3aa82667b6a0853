import ParamCheck.Proofs.Validator.Passing
import ParamCheck.Proofs.Validator.Restoration

/-!
# What filters leave of a run

Whatever callbacks do, the turn of a name adds no more to the filtered values than what its own filters
make of its parameter, and it does so even if it fails afterwards (`Validator.filtered_checkName`). So
after any turns, whether they return or not, the parameters that are written back are those from
before but for what filters have made of parameters so far (`Validator.Restored`,
`Validator.restored_writeBack`). If all checks are built in, that is what the filters make of the
parameters from before the turns (`Validator.Comes.filteredAt_eq`).
-/

namespace ParamCheck

namespace Validator

variable {hooks : Hooks} {v : Validator} {plan : Plan}

/-! ## The turn of a name -/

/-- What the filters of a field make of its parameter in a state of the run, if they run and do not
fail. -/
def filteredAt (hooks : Hooks) (v : Validator) (run : Run) (name : String) : Option Value :=
  (v.fields.lookup (.str name)).bind fun f =>
    (run.params.lookup (.str name)).bind fun x =>
      ((f.filtered? hooks.filter v.filters x).toOption).join

/-- The filtered values once a name has had its turn. -/
def filteredAfter (hooks : Hooks) (v : Validator) (plan : Plan) (run : Run) (name : String) :
    Entries Value :=
  match filteredAt hooks v run name with
  | some y => run.filtered.insert (source plan name) y
  | none => run.filtered

/-- What is filtered outlasts checks and callbacks. -/
theorem outlasting_filtered (filtered : Entries Value) :
    Run.Outlasting fun run => run.filtered = filtered where
  recorded h _ _ := h
  params h _ := h

/-- Taking the value of a field keeps what its filters make of its parameter, unless they fail. -/
theorem filtered_takeValue {run run₀ : Run} {name : String} {f : Field}
    (hparams : run.params = run₀.params) (hfiltered : run.filtered = run₀.filtered)
    (hf : v.fields.lookup (.str name) = some f.reset) :
    Leaves (Run.takeValue hooks v plan (.str name) f) run fun r =>
      r.filtered = filteredAfter hooks v plan run₀ name := by
  have hreset : f.reset.filtered? hooks.filter v.filters = f.filtered? hooks.filter v.filters := rfl
  unfold filteredAfter filteredAt Run.takeValue
  rw [hf, ← hparams, ← hfiltered, Option.bind_some, hreset]
  apply Leaves.get_bind
  cases hx : run.params.lookup (.str name) with
  | none => exact rfl
  | some x =>
    dsimp only [Option.bind_some]
    unfold Run.supply Field.supplied
    cases hfilters : f.filtered? hooks.filter v.filters x with
    | error e => exact rfl
    | ok filtered =>
      have hkept := (Run.withSupplied_completed plan hx f filtered).2
      cases filtered with
      | none => exact hkept
      | some y => exact hkept

/-- The turn of a name keeps what the filters of its field make of its parameter, if they run and do
not fail, and nothing else, even if the turn fails afterwards. -/
theorem filtered_checkName (hooks : Hooks) (plan : Plan) {run : Run}
    (hnames : ∀ e ∈ v.fields, e.2.name = e.1)
    (hkeeps : run.Keeps v.fields) (name : String) :
    Leaves (Run.checkName hooks v plan name) run fun r =>
      r.filtered = filteredAfter hooks v plan run name := by
  unfold Run.checkName
  apply Leaves.get_bind
  cases hf : run.fields.lookup (.str name) with
  | none =>
    have hnone : v.fields.lookup (.str name) = none := by
      rw [← hkeeps, Entries.lookup_mapValues, hf]
      rfl
    have hsame : filteredAfter hooks v plan run name = run.filtered := by
      unfold filteredAfter filteredAt
      rw [hnone]
      rfl
    rw [hsame]
    dsimp only
    unfold Run.unknown
    apply Leaves.get_bind
    refine Leaves.bind (Leaves.liftM_iff.2 rfl) fun journal u hu _ => ?_
    obtain ⟨-, rfl⟩ := Returns.liftM_iff.1 hu
    exact rfl
  | some f =>
    obtain ⟨-, hself⟩ := hkeeps.lookup_turn hnames hf
    dsimp only
    refine Leaves.modify_bind ?_
    unfold Run.checkField
    refine Leaves.bind (filtered_takeValue rfl rfl (hself _)) fun value u _ hu => ?_
    refine Leaves.modify_bind ?_
    refine (outlasting_filtered _).checkValue ?_ _ _ _
    exact hu

/-- What is found among the filtered values once a name has had its turn. -/
theorem lookup_filteredAfter (hooks : Hooks) (v : Validator) (plan : Plan) (run : Run)
    (name : String) (k : Value) :
    (filteredAfter hooks v plan run name).lookup k = run.filtered.lookup k ∨
      ∃ y, filteredAt hooks v run name = some y ∧ (source plan name).key? = k.key? ∧
        (filteredAfter hooks v plan run name).lookup k = some y := by
  unfold filteredAfter
  cases hy : filteredAt hooks v run name with
  | none => exact .inl rfl
  | some y =>
    by_cases hkey : (source plan name).key? = k.key?
    · refine .inr ⟨y, rfl, hkey, ?_⟩
      rw [Entries.lookup_insert, if_pos hkey]
    · left
      rw [Entries.lookup_insert, if_neg hkey]

/-! ## Turns in a row -/

/-- Of turns that start in the state `run`, that of a name comes in the state `r`, after those before
it have returned. -/
structure Comes (hooks : Hooks) (v : Validator) (plan : Plan) (turns : List String) (run : Run)
    (before : List String) (name : String) (after : List String) (r : Run) : Prop where
  split : turns = before ++ name :: after
  returns : Returns (Run.checkFields hooks v plan before) run () r

/-- The first turn comes at once. -/
theorem Comes.first (name : String) (rest : List String) (run : Run) :
    Comes hooks v plan (name :: rest) run [] name rest run := ⟨rfl, rfl⟩

/-- The other turns come after the first one. -/
theorem Comes.cons {first name : String} {rest before after : List String} {run w r : Run}
    (hfirst : Returns (Run.checkName hooks v plan first) run () w)
    (h : Comes hooks v plan rest w before name after r) :
    Comes hooks v plan (first :: rest) run (first :: before) name after r where
  split := by rw [h.split, List.cons_append]
  returns := Returns.bind_iff.2 ⟨(), w, hfirst, h.returns⟩

/-- Turns that follow others start where these have returned. -/
theorem run_checkFields_append {before : List String} (after : List String) :
    ∀ {run r : Run}, Returns (Run.checkFields hooks v plan before) run () r →
      (Run.checkFields hooks v plan (before ++ after)).run run =
        (Run.checkFields hooks v plan after).run r := by
  induction before with
  | nil =>
    intro run r h
    obtain ⟨-, rfl⟩ := Returns.pure_iff.1 h
    rfl
  | cons name rest ih =>
    intro run r h
    obtain ⟨_, w, hname, hrest⟩ := Returns.bind_iff.1 h
    rw [List.cons_append, Run.checkFields, hname.run_bind, ih hrest]

/-- The turns after that of a name come in the same states as if they were taken on their own. -/
theorem Comes.append {turns before after before' after' : List String} {name n : String}
    {run r w r' : Run} (h : Comes hooks v plan turns run before name after r)
    (hturn : Returns (Run.checkName hooks v plan name) r () w)
    (h' : Comes hooks v plan after w before' n after' r') :
    Comes hooks v plan turns run (before ++ name :: before') n after' r' where
  split := by rw [h.split, h'.split, List.append_assoc, List.cons_append]
  returns := by
    show (Run.checkFields hooks v plan (before ++ name :: before')).run run = _
    rw [run_checkFields_append _ h.returns, Run.checkFields, hturn.run_bind]
    exact h'.returns

/-- Without repetitions a name has one turn. -/
theorem Comes.before_eq {turns before after before' after' : List String} {name : String}
    {run r r' : Run} (hturns : turns.Nodup) (h : Comes hooks v plan turns run before name after r)
    (h' : Comes hooks v plan turns run before' name after' r') : before' = before := by
  obtain ⟨hbefore, -⟩ := eq_of_split hturns h'.split h.split
  exact hbefore

/-- Of the turns that come, that of the name is the last one to filter a parameter of its key. -/
def Last (hooks : Hooks) (v : Validator) (plan : Plan) (turns : List String) (run : Run)
    (before : List String) (name : String) : Prop :=
  ∀ before' n after' r' y', Comes hooks v plan turns run before' n after' r' →
    before.length < before'.length → filteredAt hooks v r' n = some y' →
      (source plan n).key? ≠ (source plan name).key?

/-- If turns fail, one of them comes and fails. -/
theorem exists_comes_of_error {turns : List String} {e : Fault} {w : Run} :
    ∀ {run : Run}, (Run.checkFields hooks v plan turns).run run = (.error e, w) →
      ∃ before name after r, Comes hooks v plan turns run before name after r ∧
        (Run.checkName hooks v plan name).run r = (.error e, w) := by
  induction turns with
  | nil =>
    intro run h
    cases congrArg Prod.fst h
  | cons name rest ih =>
    intro run h
    rcases run_bind_eq_error_iff.1 h with hfails | ⟨_, r, hreturns, hrest⟩
    · exact ⟨[], name, rest, run, .first name rest run, hfails⟩
    · obtain ⟨before, n, after, r', hcomes, hfails⟩ := ih hrest
      exact ⟨name :: before, n, after, r', hcomes.cons hreturns, hfails⟩

section

variable (hnames : ∀ e ∈ v.fields, e.2.name = e.1)

include hnames

/-- Turns add to the filtered values what filters make of parameters, under the keys that supplied
them, whether or not the turns return. -/
theorem lookup_filtered_checkFields {turns : List String} (k : Value) :
    ∀ {run : Run}, run.Keeps v.fields →
      Leaves (Run.checkFields hooks v plan turns) run fun w =>
        w.filtered.lookup k = run.filtered.lookup k ∨
          ∃ before name after r y, Comes hooks v plan turns run before name after r ∧
            filteredAt hooks v r name = some y ∧ (source plan name).key? = k.key? ∧
              w.filtered.lookup k = some y := by
  induction turns with
  | nil => exact fun _ => .inl rfl
  | cons name rest ih =>
    intro run hkeeps
    have hturn := filtered_checkName hooks plan hnames hkeeps name
    have hkept := Run.checkName_keeps hooks v plan hnames hkeeps name
    have hfirst := lookup_filteredAfter hooks v plan run name k
    unfold Leaves at hturn hkept ⊢
    rw [Run.checkFields, run_bind]
    rcases hname : (Run.checkName hooks v plan name).run run with ⟨result, w⟩
    rw [hname] at hturn hkept
    rw [← hturn] at hfirst
    cases result with
    | error e =>
      rcases hfirst with hsame | ⟨y, hy, hkey, hlookup⟩
      · exact .inl hsame
      · exact .inr ⟨[], name, rest, run, y, .first name rest run, hy, hkey, hlookup⟩
    | ok u =>
      rcases ih hkept with hsame | ⟨before, n, after, r, y, hcomes, hy, hkey, hlookup⟩
      · rcases hfirst with hsame' | ⟨y, hy, hkey, hlookup⟩
        · exact .inl (hsame.trans hsame')
        · exact .inr ⟨[], name, rest, run, y, .first name rest run, hy, hkey,
            hsame.trans hlookup⟩
      · exact .inr ⟨name :: before, n, after, r, y, hcomes.cons hname, hy, hkey, hlookup⟩

/-- What the filters of a field make of its parameter is kept from its turn on, until a later turn
puts something in its place. -/
theorem lookup_filtered_of_comes {turns before after : List String} {name : String} {run r : Run}
    (hkeeps : run.Keeps v.fields) (hcomes : Comes hooks v plan turns run before name after r)
    {y : Value} (hy : filteredAt hooks v r name = some y)
    (hlast : Last hooks v plan turns run before name) :
    Leaves (Run.checkFields hooks v plan turns) run fun w =>
      w.filtered.lookup (source plan name) = some y := by
  have hrkeeps : r.Keeps v.fields :=
    hcomes.returns.leaves_iff.1 (Run.checkFields_keeps hooks v plan hnames before hkeeps)
  have hturn := filtered_checkName hooks plan hnames hrkeeps name
  have hkept := Run.checkName_keeps hooks v plan hnames hrkeeps name
  have hfirst : (filteredAfter hooks v plan r name).lookup (source plan name) = some y := by
    unfold filteredAfter
    rw [hy]
    dsimp only
    rw [Entries.lookup_insert, if_pos rfl]
  unfold Leaves at hturn hkept ⊢
  rw [hcomes.split, run_checkFields_append _ hcomes.returns, Run.checkFields, run_bind]
  rcases hname : (Run.checkName hooks v plan name).run r with ⟨result, w⟩
  rw [hname] at hturn hkept
  rw [← hturn] at hfirst
  cases result with
  | error e => exact hfirst
  | ok u =>
    rcases lookup_filtered_checkFields hnames (source plan name) hkept with
      hsame | ⟨_, n, _, r', y', hcomes', hy', hkey, -⟩
    · exact hsame.trans hfirst
    · exact absurd hkey (hlast _ _ _ _ _ (hcomes.append hname hcomes')
        (by rw [List.length_append, List.length_cons]; omega) hy')

/-- Filtered values are kept under different keys, whether or not the turns return. -/
theorem distinct_filtered_checkFields (hooks : Hooks) (plan : Plan) (turns : List String) :
    ∀ {run : Run}, run.Keeps v.fields → run.filtered.Distinct →
      Leaves (Run.checkFields hooks v plan turns) run fun w => w.filtered.Distinct := by
  induction turns with
  | nil => exact fun _ h => h
  | cons name rest ih =>
    intro run hkeeps hdistinct
    have hturn := filtered_checkName hooks plan hnames hkeeps name
    have hkept := Run.checkName_keeps hooks v plan hnames hkeeps name
    have hafter : (filteredAfter hooks v plan run name).Distinct := by
      unfold filteredAfter
      split
      · exact hdistinct.insert _ _
      · exact hdistinct
    unfold Leaves at hturn hkept ⊢
    rw [Run.checkFields, run_bind]
    rcases hname : (Run.checkName hooks v plan name).run run with ⟨result, w⟩
    rw [hname] at hturn hkept
    rw [← hturn] at hafter
    cases result with
    | error e => exact hafter
    | ok u => exact ih hkept hafter

end

/-! ## The parameters after the turns -/

/-- After turns that start in the state `run`, the parameters are those from before but for filters.
Whatever has changed is what the filters of a field whose turn came have made of its parameter, under
the key that supplied it. All that filters have made is there, unless the key is missing or a later
turn has put something in its place. -/
structure Restored (hooks : Hooks) (v : Validator) (plan : Plan) (turns : List String) (run : Run)
    (params params' : Entries Value) : Prop where
  keys : params'.keys = params.keys
  changed : ∀ k, params'.lookup k = params.lookup k ∨
    ∃ before name after r y, Comes hooks v plan turns run before name after r ∧
      filteredAt hooks v r name = some y ∧ (source plan name).key? = k.key? ∧
        params'.lookup k = some y
  kept : ∀ before name after r y, Comes hooks v plan turns run before name after r →
    filteredAt hooks v r name = some y → Last hooks v plan turns run before name →
      params.contains (source plan name) = true → params'.lookup (source plan name) = some y

/-- Writing back what turns have filtered restores the parameters but for filters. -/
theorem restored_writeBack (hooks : Hooks) (plan : Plan) (turns : List String)
    (params : Entries Value) {run : Run} (hnames : ∀ e ∈ v.fields, e.2.name = e.1)
    (hkeeps : run.Keeps v.fields) (hfiltered : run.filtered = []) :
    Leaves (Run.checkFields hooks v plan turns) run fun w =>
      Restored hooks v plan turns run params (writeBack params w.filtered) := by
  have hempty : run.filtered.Distinct := by
    rw [hfiltered]
    exact List.Pairwise.nil
  have hdistinct := distinct_filtered_checkFields hnames hooks plan turns hkeeps hempty
  refine ⟨keys_writeBack _ _, fun k => ?_, fun before name after r y hcomes hy hlater hk => ?_⟩
  · rw [lookup_writeBack hdistinct]
    cases hparam : params.lookup k with
    | none => exact .inl rfl
    | some x =>
      rcases lookup_filtered_checkFields hnames k hkeeps with
        hsame | ⟨before, name, after, r, y, hcomes, hy, hkey, hlookup⟩
      · rw [hfiltered, Entries.lookup_nil] at hsame
        left
        rw [hsame]
        rfl
      · right
        refine ⟨before, name, after, r, y, hcomes, hy, hkey, ?_⟩
        rw [hlookup]
        rfl
  · have hlookup := lookup_filtered_of_comes hnames hkeeps hcomes hy hlater
    obtain ⟨x, hx⟩ := Option.isSome_iff_exists.1 hk
    unfold Leaves at hlookup
    rw [lookup_writeBack hdistinct, hx, hlookup]
    rfl

/-! ## Built-in checks -/

/-- What the filters of a field make of its parameter, if it has one and they do not fail: the
parameter itself, if nothing is filtered. -/
theorem filteredAt_getD {run : Run} {name : String} {f : Field} {x y : Value}
    (hf : v.fields.lookup (.str name) = some f) (hx : run.params.lookup (.str name) = some x)
    (hy : runFilters hooks.filter v.filters f.filters x = .ok y) :
    (filteredAt hooks v run name).getD x = y := by
  obtain ⟨filtered, hfiltered⟩ := Field.filtered?_of_runFilters hy
  have hsame : runFilters hooks.filter v.filters f.filters x = .ok (filtered.getD x) :=
    Field.filtered?_ok hfiltered
  have hat : filteredAt hooks v run name = filtered := by
    unfold filteredAt
    rw [hf, Option.bind_some, hx, Option.bind_some, hfiltered]
    cases filtered <;> rfl
  rw [hat]
  exact Except.ok.inj (hsame.symm.trans hy)

/-- If all checks are built in and no name has two turns, each turn filters the parameter that was there
before all turns. -/
theorem Comes.filteredAt_eq (hv : v.Plain) {turns before after : List String} {name : String}
    {run r : Run} (hturns : turns.Nodup) (hkeeps : run.Keeps v.fields)
    (hparams : run.params.Distinct) (h : Comes hooks v plan turns run before name after r) :
    filteredAt hooks v r name = filteredAt hooks v run name := by
  rw [h.split] at hturns
  obtain ⟨hbefore, -, hdisjoint⟩ := List.nodup_append.1 hturns
  have hname : name ∉ before := fun hmem => hdisjoint name hmem name List.mem_cons_self rfl
  unfold filteredAt
  rw [checkFields_params hv hbefore hkeeps hparams h.returns, lookup_checkedParams_of_not_mem hname]

/-- The turns of all selected names come in a run that returns. -/
theorem Ran.comes {targets : List Value} {run₀ run : Run} (hran : Ran hooks v targets plan run₀ run)
    {name : String} (hname : name ∈ plan.selected) :
    ∃ before after r, Comes hooks v.resetFields plan plan.selected run₀ before name after r := by
  obtain ⟨before, after, hsplit⟩ := List.append_of_mem hname
  have hturns := hran.turns
  rw [hsplit] at hturns
  obtain ⟨r, hbefore, -⟩ := checkFields_append (name :: after) hturns
  exact ⟨before, after, r, hsplit, hbefore⟩

/-- What a run that returns leaves of the parameters. -/
theorem Ran.restored {targets : List Value} {run₀ run : Run}
    (hran : Ran hooks v targets plan run₀ run) :
    Restored hooks v.resetFields plan plan.selected run₀ v.params
      (v.validate hooks targets).validator.params := by
  have hrestored := restored_writeBack hooks plan plan.selected v.params hran.plain.names hran.keeps
    hran.filtered
  rw [hran.params_after]
  exact hran.turns.leaves_iff.1 hrestored

end Validator

end ParamCheck
