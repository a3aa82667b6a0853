import ParamCheck.Proofs.Validator.Answer
import ParamCheck.Proofs.Validator.Passing
import ParamCheck.Proofs.Validator.Permutation
import ParamCheck.Proofs.Validator.Restoration
import ParamCheck.Proofs.Validator.Verdict

/-!
# The order of targets

The fields of a run have their turns in the order of the targets, and each turn filters the
parameter of its field. A check that reads the parameter of another field finds it before or after
that field's turn. So targets in another order can give another answer
(`Validator.not_orderIndependent`), but they do not if every check finds the parameters that it
reads alike in both orders (`Validator.OrderKept`, `Validator.validate_perm`).
-/

namespace ParamCheck

/-! ## Positions -/

/-- What stands before a name in a list of different names. -/
theorem mem_before_iff {names before after : List String} {name : String} (hnames : names.Nodup)
    (hsplit : names = before ++ name :: after) (other : String) :
    other ∈ before ↔ names.idxOf other < names.idxOf name := by
  subst hsplit
  obtain ⟨-, -, hdisjoint⟩ := List.nodup_append.1 hnames
  have hname : name ∉ before := fun hmem => hdisjoint name hmem name List.mem_cons_self rfl
  rw [List.idxOf_append, List.idxOf_append, if_neg hname, List.idxOf_cons_self, Nat.zero_add]
  by_cases hother : other ∈ before
  · rw [if_pos hother]
    exact iff_of_true hother (List.idxOf_lt_length_iff.2 hother)
  · rw [if_neg hother]
    exact iff_of_false hother (Nat.not_lt.2 (Nat.le_add_left _ _))

/-- One name stands before another one in both lists or in neither. -/
def SameOrder (ts ts' : List String) (other name : String) : Prop :=
  ts.idxOf other < ts.idxOf name ↔ ts'.idxOf other < ts'.idxOf name

instance (ts ts' : List String) (other name : String) : Decidable (SameOrder ts ts' other name) :=
  inferInstanceAs (Decidable (_ ↔ _))

/-- Two names stand in the same order also if the lists go on, unless both are names of the lists
that stand in another order. -/
theorem SameOrder.append {ts ts' : List String} (hperm : ts.Perm ts') {other name : String}
    (h : other ∈ ts → name ∈ ts → SameOrder ts ts' other name) (rest : List String) :
    SameOrder (ts ++ rest) (ts' ++ rest) other name := by
  have hlength := hperm.length_eq
  have hlt : ∀ {n : String}, n ∈ ts → ts.idxOf n < ts.length ∧ ts'.idxOf n < ts.length := by
    intro n hn
    refine ⟨List.idxOf_lt_length_iff.2 hn, ?_⟩
    rw [hlength]
    exact List.idxOf_lt_length_iff.2 (hperm.mem_iff.1 hn)
  unfold SameOrder
  simp only [List.idxOf_append, ← hperm.mem_iff]
  by_cases hother : other ∈ ts
  · by_cases hname : name ∈ ts
    · simp only [if_pos hother, if_pos hname]
      exact h hother hname
    · have := hlt hother
      simp only [if_pos hother, if_neg hname]
      omega
  · by_cases hname : name ∈ ts
    · have := hlt hname
      simp only [if_neg hother, if_pos hname]
      omega
    · simp only [if_neg hother, if_neg hname]
      omega

/-! ## What checks find -/

/-- The same messages are expected of a field if its checks find parameters that make no difference
to them. -/
theorem Field.expected_of_alike {search : PatternSearch} {table : DirectiveTable} {f : Field}
    {p q : Entries Value}
    (h : ∀ e ∈ f.directives, ∀ c, table.check? e.1 = some (.builtin c) → ∀ k ∈ c.reads e.2,
      c.Alike ((p.lookup k).getD .null) ((q.lookup k).getD .null))
    (x : Value) (fields : Entries Field) :
    f.expected search table x ⟨p, fields⟩ = f.expected search table x ⟨q, fields⟩ := by
  have hfailures : ∀ {ds : List (Value × Value)}, (∀ e ∈ ds, e ∈ f.directives) →
      failures search table x f ⟨p, fields⟩ ds = failures search table x f ⟨q, fields⟩ ds := by
    intro ds hds
    unfold failures
    rw [List.flatMap_def, List.flatMap_def]
    refine congrArg List.flatten (List.map_congr_left fun e he => ?_)
    obtain ⟨key, argument⟩ := e
    dsimp only
    split
    · next c hcheck =>
      have hreads := h _ (hds _ he) c hcheck
      exact congrArg Script.messages (BuiltinCheck.script_of_alike fields c search argument x f hreads)
    · rfl
  unfold expected
  rw [hfailures fun _ he => he]

/-- A value can be checked as it can be if the checks find parameters that make no difference to
them. -/
theorem Field.checkable_of_alike {search : PatternSearch} {table : DirectiveTable} {f : Field}
    {p q : Entries Value}
    (h : ∀ e ∈ f.directives, ∀ c, table.check? e.1 = some (.builtin c) → ∀ k ∈ c.reads e.2,
      c.Alike ((p.lookup k).getD .null) ((q.lookup k).getD .null))
    (hasParams : Bool) (x : Value) (fields : Entries Field) :
    f.Checkable search table hasParams x ⟨p, fields⟩ ↔
      f.Checkable search table hasParams x ⟨q, fields⟩ := by
  have hanswers : ∀ e ∈ f.directives, ∀ c, table.check? e.1 = some (.builtin c) →
      (c.answers search e.2 x f ⟨p, fields⟩ = true ↔ c.answers search e.2 x f ⟨q, fields⟩ = true) := by
    intro e he c hc
    unfold BuiltinCheck.answers
    rw [BuiltinCheck.script_of_alike fields c search e.2 x f (h e he c hc)]
  unfold Checkable
  split
  · rfl
  · refine and_congr_left fun _ => forall_congr' fun _ => forall₂_congr fun e he => ?_
    exact forall₂_congr fun c hc => hanswers e he c hc

namespace Validator

variable {hooks : Hooks} {v : Validator} {ts ts' rest : List String} {plan : Plan}
  {run₀ run run' : Run}

/-- What the turn of a field makes of its parameter makes no difference to a check. -/
def Unaltered (hooks : Hooks) (v : Validator) (c : BuiltinCheck) (name : String) : Prop :=
  ∀ f x y, v.fields.lookup (.str name) = some f →
    v.params.lookup (AliasMap.supplier v.params (.str name) f) = some x →
      f.checkedValue hooks.filter v.filters (some x) = .ok y → c.Alike x y

/-- Whenever a check of a target reads the parameter of another target, the two stand in the same
order in both lists, or the turn of the other one makes no difference to the check. -/
def OrderKept (hooks : Hooks) (v : Validator) (ts ts' : List String) : Prop :=
  ∀ name ∈ ts, ∀ f, v.fields.lookup (.str name) = some f → ∀ e ∈ f.directives, ∀ c,
    v.directives.check? e.1 = some (.builtin c) → ∀ other ∈ ts, .str other ∈ c.reads e.2 →
      SameOrder ts ts' other name ∨ Unaltered hooks v c other

/-- Two orders are kept both ways. -/
theorem OrderKept.symm (h : OrderKept hooks v ts ts') (hperm : ts.Perm ts') :
    OrderKept hooks v ts' ts := by
  intro name hname f hf e he c hc other hother hreads
  have hkept := h name (hperm.mem_iff.2 hname) f hf e he c hc other (hperm.mem_iff.2 hother) hreads
  exact hkept.imp Iff.symm id

/-- A parameter that the turn of its field does not alter for a check makes no difference to that
check, whether or not the turn has come. -/
theorem Unaltered.alike {c : BuiltinCheck} {name : String} (h : Unaltered hooks v c name)
    {params : Entries Value}
    (hparams : ∀ f, v.fields.lookup (.str name) = some f →
      params.lookup (.str name) = v.params.lookup (AliasMap.supplier v.params (.str name) f))
    (done done' : List String) :
    c.Alike (((checkedParams hooks v done params).lookup (.str name)).getD .null)
      (((checkedParams hooks v done' params).lookup (.str name)).getD .null) := by
  rw [lookup_checkedParams, lookup_checkedParams]
  cases hx : params.lookup (.str name) with
  | none => exact .refl c .null
  | some x =>
    -- What the turn makes of the parameter is like the parameter.
    have hturn : ∀ names, name ∈ names → c.Alike x (checkedParam hooks v names (.str name) x) := by
      intro names hmem
      rw [checkedParam_of_mem hmem]
      cases hf : v.fields.lookup (.str name) with
      | none => exact .refl c x
      | some f =>
        dsimp only
        cases hy : f.checkedValue hooks.filter v.filters (some x) with
        | error e => exact .refl c x
        | ok y => exact h f x y hf ((hparams f hf).symm.trans hx) hy
    show c.Alike (checkedParam hooks v done (.str name) x)
      (checkedParam hooks v done' (.str name) x)
    by_cases hdone : name ∈ done
    · by_cases hdone' : name ∈ done'
      · rw [checkedParam_of_mem hdone, checkedParam_of_mem hdone']
        exact .refl c _
      · rw [checkedParam_of_not_mem hdone']
        exact (hturn done hdone).symm
    · rw [checkedParam_of_not_mem hdone]
      by_cases hdone' : name ∈ done'
      · exact hturn done' hdone'
      · rw [checkedParam_of_not_mem hdone']
        exact .refl c x

/-- If the order is kept, a check finds what it reads alike when the turn of its field comes,
whichever of the two lists comes first in the run. -/
theorem OrderKept.alike (h : OrderKept hooks v ts ts') (hperm : ts.Perm ts')
    {params : Entries Value}
    (hparams : ∀ name f, v.fields.lookup (.str name) = some f →
      params.lookup (.str name) = v.params.lookup (AliasMap.supplier v.params (.str name) f))
    {before before' after after' : List String} {name : String} (hnodup : (ts ++ rest).Nodup)
    (hsplit : ts ++ rest = before ++ name :: after) (hnodup' : (ts' ++ rest).Nodup)
    (hsplit' : ts' ++ rest = before' ++ name :: after') {f : Field}
    (hf : v.fields.lookup (.str name) = some f) {e : Value × Value} (he : e ∈ f.directives)
    {c : BuiltinCheck} (hc : v.directives.check? e.1 = some (.builtin c)) {k : Value}
    (hk : k ∈ c.reads e.2) :
    c.Alike (((checkedParams hooks v (before ++ [name]) params).lookup k).getD .null)
      (((checkedParams hooks v (before' ++ [name]) params).lookup k).getD .null) := by
  cases k with
  | str other =>
    by_cases hmoved : other ∈ ts ∧ name ∈ ts ∧ ¬SameOrder ts ts' other name
    · obtain ⟨hother, hname, hne⟩ := hmoved
      have hunaltered := (h name hname f hf e he c hc other hother hk).resolve_left hne
      exact hunaltered.alike (hparams other) _ _
    · -- The turn of the other field has come in both orders or in neither.
      have hsame : SameOrder (ts ++ rest) (ts' ++ rest) other name :=
        .append hperm (fun hother hname => by_contra fun hne => hmoved ⟨hother, hname, hne⟩) rest
      have hdone : other ∈ before ++ [name] ↔ other ∈ before' ++ [name] := by
        rw [List.mem_append, List.mem_append, mem_before_iff hnodup hsplit,
          mem_before_iff hnodup' hsplit']
        exact or_congr_left hsame
      have hturn : checkedParam hooks v (before ++ [name]) (.str other) =
          checkedParam hooks v (before' ++ [name]) (.str other) := by
        unfold checkedParam
        simp only [hdone]
      rw [lookup_checkedParams, lookup_checkedParams, hturn]
      exact .refl c _
  | _ =>
    -- Only texts have turns.
    rw [lookup_checkedParams, lookup_checkedParams]
    exact .refl c _

/-! ## The fields after a run -/

/-- A run leaves the declarations of the fields. -/
theorem Ran.keeps_after {targets : List Value} (hran : Ran hooks v targets plan run₀ run) :
    run.Keeps v.resetFields.fields :=
  hran.turns.leaves_iff.1
    (Run.checkFields_keeps hooks v.resetFields plan hran.plain.names plan.selected hran.keeps)

section

variable {notes : List Note} (hv : v.Consistent) (hperm : ts.Perm ts')
  (horder : OrderKept hooks v ts ts') (hselected : plan.selected = ts ++ rest)
  (hran : Ran hooks v (ts.map .str) plan run₀ run)
  (hran' : Ran hooks v (ts'.map .str) { plan with selected := ts' ++ rest } { run₀ with notes }
    run')

include hv hperm horder hselected hran hran'

/-- If the order is kept, both runs leave a selected field in the same state. -/
theorem Ran.lookup_perm {name : String} (hname : name ∈ ts ++ rest) :
    run'.fields.lookup (.str name) = run.fields.lookup (.str name) := by
  cases hf : v.fields.lookup (.str name) with
  | none =>
    have hdeclared : v.resetFields.fields.lookup (.str name) = none := by
      rw [← hran.fields, hran.lookup, hf]
      rfl
    rw [hran.keeps_after.lookup_eq_none hdeclared, hran'.keeps_after.lookup_eq_none hdeclared]
  | some f =>
    have hname' : name ∈ ts' ++ rest := (hperm.append_right rest).mem_iff.1 hname
    obtain ⟨before, after, hsplit⟩ := List.append_of_mem hname
    obtain ⟨before', after', hsplit'⟩ := List.append_of_mem hname'
    obtain ⟨x, hx, hfield⟩ := hran.lookup_selected (hselected.trans hsplit) hf
    obtain ⟨x', hx', hfield'⟩ := hran'.lookup_selected hsplit' hf
    obtain rfl := Except.ok.inj (hx.symm.trans hx')
    have hnodup := hran.nodup
    rw [hselected] at hnodup
    have hparams : ∀ name f, v.fields.lookup (.str name) = some f → run₀.params.lookup (.str name) =
        v.params.lookup (AliasMap.supplier v.params (.str name) f) :=
      fun name f hf => (hran.source_eq hv (mappingTarget?_map ts) hf).2
    -- The turn has the same value to check, and the same messages are expected of it.
    have hexpected : ∀ toggle : Toggle,
        { f.reset with toggle }.expected hooks.search v.directives x
            ⟨checkedParams hooks v (before ++ [name]) run₀.params, v.resetFields.fields⟩ =
          { f.reset with toggle }.expected hooks.search v.directives x
            ⟨checkedParams hooks v (before' ++ [name]) run₀.params, v.resetFields.fields⟩ :=
      fun toggle => Field.expected_of_alike (f := { f.reset with toggle })
        (fun e he c hc k hk =>
          horder.alike hperm hparams hnodup hsplit hran'.nodup hsplit' hf he hc hk) x _
    rw [hfield, hfield']
    unfold turned
    exact congrArg some (congrArg (Field.recorded _) (hexpected _).symm)

/-- If the order is kept, both runs leave the same fields. -/
theorem Ran.fields_perm : run'.fields = run.fields := by
  have hkeys : v.resetFields.fields.keys = v.fields.keys := Entries.keys_mapValues _ _
  refine Entries.ext_lookup ?_ ?_ fun k => ?_
  · exact hv.fields_distinct.of_keys (hran'.keeps_after.keys.trans hkeys)
  · rw [hran.keeps_after.keys, hran'.keeps_after.keys]
  by_cases hk : ∃ name ∈ ts ++ rest, (Value.str name).key? = k.key?
  · obtain ⟨name, hname, hkey⟩ := hk
    rw [← Entries.lookup_congr hkey, ← Entries.lookup_congr hkey]
    exact hran.lookup_perm hv hperm horder hselected hran' hname
  · -- No turn of either run is that of the field.
    have hother : ∀ name ∈ ts ++ rest, (Value.str name).key? ≠ k.key? :=
      fun name hname hkey => hk ⟨name, hname, hkey⟩
    have hother' : ∀ name ∈ ts' ++ rest, (Value.str name).key? ≠ k.key? :=
      fun name hname => hother name ((hperm.append_right rest).mem_iff.2 hname)
    rw [hran'.lookup_of_no_turn hother', hran.lookup_of_no_turn (hselected ▸ hother)]

end

/-! ## Targets in another order -/

section

variable (hv : v.Consistent) (hdirectives : v.directives = .builtin)
  (hcallback : ∀ e ∈ v.fields, e.2.validation.isCallback = false) (hperm : ts.Perm ts')
  (hnodup : ts.Nodup) (hunsigned : ∀ t ∈ ts, (Toggle.parse t).2 = .declared)

include hv hdirectives hcallback hperm hnodup hunsigned

/-- If the order is kept and a run returns, so does the run for the same targets in another order. -/
theorem Ran.exists_perm (horder : OrderKept hooks v ts ts')
    (hran : Ran hooks v (ts.map .str) plan run₀ run) :
    ∃ rest notes run', plan.selected = ts ++ rest ∧
      (v.validate hooks (ts'.map .str)).answer = .ok run'.messages.isEmpty ∧
      Ran hooks v (ts'.map .str) { plan with selected := ts' ++ rest } { run₀ with notes }
        run' := by
  obtain ⟨rest, notes, hselected, hplan⟩ := plan_perm hperm hnodup hunsigned hran.planned
  have hselected' : plan.selected.Perm (ts' ++ rest) := hselected ▸ hperm.append_right rest
  have hnodup' : (ts' ++ rest).Nodup := hselected'.nodup_iff.1 hran.nodup
  have hparams : ∀ name f, v.fields.lookup (.str name) = some f → run₀.params.lookup (.str name) =
      v.params.lookup (AliasMap.supplier v.params (.str name) f) :=
    fun name f hf => (hran.source_eq hv (mappingTarget?_map ts) hf).2
  -- The turns are the same, and none of them fails where it did not in the other order.
  have hpasses := (checkFields_settles_iff hran.plain hran.nodup hran.keeps hran.distinct).1
    ⟨(), run, hran.turns⟩
  have hkeeps : Run.Keeps v.resetFields.fields { run₀ with notes } := hran.keeps
  obtain ⟨_, r, hturns⟩ : Settles (Run.checkFields hooks v.resetFields
      { plan with selected := ts' ++ rest } (ts' ++ rest)) { run₀ with notes } := by
    refine (checkFields_settles_iff hran.plain hnodup' hkeeps hran.distinct).2
      fun before' name after' hsplit' => ?_
    have hname : name ∈ ts' ++ rest := hsplit' ▸ List.mem_append_right before' List.mem_cons_self
    obtain ⟨before, after, hsplit⟩ := List.append_of_mem (hselected'.mem_iff.2 hname)
    have hpass := hpasses before name after hsplit
    rw [hselected] at hsplit
    unfold Passes at hpass ⊢
    cases hf : v.fields.lookup (.str name) with
    | none =>
      rw [lookup_resetFields_eq_none_iff.2 hf] at hpass ⊢
      exact hpass
    | some f =>
      rw [lookup_resetFields hf] at hpass ⊢
      obtain ⟨x, hx, hcheckable⟩ := hpass
      refine ⟨x, hx, ?_⟩
      rw [checkedParams_resetFields] at hcheckable ⊢
      have hnodup'' := hran.nodup
      rw [hselected] at hnodup''
      have hreads : ∀ e ∈ f.directives, ∀ c, v.directives.check? e.1 = some (.builtin c) →
          ∀ k ∈ c.reads e.2,
            c.Alike (((checkedParams hooks v (before ++ [name]) run₀.params).lookup k).getD .null)
              (((checkedParams hooks v (before' ++ [name]) run₀.params).lookup k).getD .null) :=
        fun e he c hc k hk => horder.alike hperm hparams hnodup'' hsplit hnodup' hsplit' hf he hc hk
      exact (Field.checkable_of_alike
        (f := { f.reset with toggle := (plan.toggles.lookup (.str name)).getD .declared })
        hreads _ x _).1 hcheckable
  have hanswer := answer_of_turns hplan hturns
  obtain ⟨plan', run₀', run', hran'⟩ := exists_ran hv hdirectives hcallback hanswer
  obtain ⟨rfl, rfl⟩ := hran'.planned.unique hplan
  obtain ⟨-, rfl⟩ := hran'.turns.unique hturns
  exact ⟨rest, notes, run', hselected, hanswer, hran'⟩

/-- If the order is kept and the run for the targets returns, the run for the other order returns
the same answer and leaves the same fields. -/
theorem answer_perm (horder : OrderKept hooks v ts ts') {b : Bool}
    (h : (v.validate hooks (ts.map .str)).answer = .ok b) :
    (v.validate hooks (ts'.map .str)).answer = .ok b ∧
      (v.validate hooks (ts'.map .str)).validator.fields =
        (v.validate hooks (ts.map .str)).validator.fields := by
  obtain ⟨plan, run₀, run, hran⟩ := exists_ran hv hdirectives hcallback h
  obtain ⟨rest, notes, run', hselected, hanswer', hran'⟩ :=
    hran.exists_perm hv hdirectives hcallback hperm hnodup hunsigned horder
  have hfields : (v.validate hooks (ts'.map .str)).validator.fields =
      (v.validate hooks (ts.map .str)).validator.fields := by
    rw [hran.fields_after, hran'.fields_after]
    exact hran.fields_perm hv hperm horder hselected hran'
  refine ⟨?_, hfields⟩
  -- The answers say the same of the same fields and of the same names.
  have hstray : ∀ m, v.Stray ((v.selected? (ts'.map .str)).getD []) m ↔
      v.Stray ((v.selected? (ts.map .str)).getD []) m := by
    intro m
    rw [selected?_eq hran.planned, selected?_eq hran'.planned, Option.getD_some, Option.getD_some,
      hselected]
    exact stray_perm (hperm.symm.append_right rest) m
  have hsame : run'.messages.isEmpty = true ↔ b = true := by
    rw [answer_eq_true_iff hv.named h, answer_eq_true_iff hv.named hanswer', fieldErrors,
      fieldErrors, hfields]
    simp only [hstray]
  rw [hanswer', Bool.eq_iff_iff.2 hsame]

end

/-- If all checks are built in and no field has a validation callback, different targets without
signs can be given in another order: as long as every check of a target finds the parameters of
other targets alike in both orders, one run returns when the other one does, with the same answer,
and leaves each field with the same value and the same messages. -/
theorem validate_perm (hv : Reachable hooks v) (hdirectives : v.directives = .builtin)
    (hcallback : ∀ e ∈ v.fields, e.2.validation.isCallback = false) (hperm : ts.Perm ts')
    (hnodup : ts.Nodup) (hunsigned : ∀ t ∈ ts, (Toggle.parse t).2 = .declared)
    (horder : OrderKept hooks v ts ts') :
    (∀ b, (v.validate hooks (ts.map .str)).answer = .ok b ↔
        (v.validate hooks (ts'.map .str)).answer = .ok b) ∧
      ∀ b, (v.validate hooks (ts.map .str)).answer = .ok b →
        (v.validate hooks (ts'.map .str)).validator.fields =
          (v.validate hooks (ts.map .str)).validator.fields := by
  have hconsistent := hv.consistent
  refine ⟨fun b => ⟨fun h => ?_, fun h => ?_⟩, fun b h => ?_⟩
  · exact (answer_perm hconsistent hdirectives hcallback hperm hnodup hunsigned horder h).1
  · have hunsigned' : ∀ t ∈ ts', (Toggle.parse t).2 = .declared :=
      fun t ht => hunsigned t (hperm.mem_iff.2 ht)
    exact (answer_perm hconsistent hdirectives hcallback hperm.symm (hperm.nodup_iff.1 hnodup)
      hunsigned' (horder.symm hperm) h).1
  · exact (answer_perm hconsistent hdirectives hcallback hperm hnodup hunsigned horder h).2

/-- A validator for a field that trims, one that is to match it, and one that depends on it. -/
def subscription : Validator where
  options := {}
  directives := .builtin
  filters := .builtin
  children := []
  mixins := []
  aliases := {}
  warnings := []
  fields :=
    [(.str "mail", { name := .str "mail", directives := [(.str "filters", .list [.str "trim"])] }),
      (.str "again",
        { name := .str "again"
          directives := [(.str "matches", .str "mail"), (.str "filters", .list [])] }),
      (.str "news",
        { name := .str "news"
          directives := [(.str "depends_on", .str "mail"), (.str "filters", .list [])] })]
  params := [(.str "mail", .str " x"), (.str "again", .str "x"), (.str "news", .str "yes")]

/-- The validator is created from the directives of its fields. -/
theorem reachable_subscription : Reachable .none subscription :=
  @Reachable.create .none {} (.dict subscription.params)
    { fields := .dict (subscription.fields.mapValues fun f => .dict f.directives) } subscription
    (by unfold Value.KeysDiffer; decide) (by unfold Value.KeysDiffer; decide) rfl

/-- The field that is to match the other one stays behind it, and the one that depends on it finds
it no more blank once it is trimmed. -/
theorem orderKept_subscription :
    OrderKept .none subscription ["mail", "again", "news"] ["news", "mail", "again"] := by
  have hmatches : DirectiveTable.builtin.check? (.str "matches") =
      some (.builtin .matchesField) := rfl
  have hdepends : DirectiveTable.builtin.check? (.str "depends_on") =
      some (.builtin .dependsOn) := rfl
  have hfilters : DirectiveTable.builtin.check? (.str "filters") = none := rfl
  intro name hname f hf e he c hc other hother hreads
  change DirectiveTable.builtin.check? e.1 = some (.builtin c) at hc
  simp only [List.mem_cons, List.not_mem_nil, or_false] at hname
  rcases hname with rfl | rfl | rfl
  · obtain rfl := Option.some.inj hf
    obtain rfl := List.mem_singleton.1 he
    cases hfilters.symm.trans hc
  · obtain rfl := Option.some.inj hf
    rcases List.mem_cons.1 he with rfl | he
    · obtain rfl := Check.builtin.inj (Option.some.inj (hmatches.symm.trans hc))
      obtain rfl := Value.str.inj (List.mem_singleton.1 hreads)
      exact .inl (by decide)
    · obtain rfl := List.mem_singleton.1 he
      cases hfilters.symm.trans hc
  · obtain rfl := Option.some.inj hf
    rcases List.mem_cons.1 he with rfl | he
    · obtain rfl := Check.builtin.inj (Option.some.inj (hdepends.symm.trans hc))
      obtain rfl := Value.str.inj (List.mem_singleton.1 hreads)
      refine .inr fun g x y hg hx hy => ?_
      obtain rfl := Option.some.inj hg
      obtain rfl := Option.some.inj hx
      have hblank : (Field.checkedValue Hooks.none.filter subscription.filters
          { name := .str "mail", directives := [(.str "filters", .list [.str "trim"])] }
          (some (.str " x"))).toOption.map Value.isBlank = some false := by decide +kernel
      rw [hy] at hblank
      exact (Option.some.inj hblank).symm
    · obtain rfl := List.mem_singleton.1 he
      cases hfilters.symm.trans hc

/-- All three fields pass in both orders. -/
theorem validate_perm_subscription :
    (subscription.validate .none [.str "news", .str "mail", .str "again"]).answer = .ok true ∧
      (subscription.validate .none [.str "news", .str "mail", .str "again"]).validator.fields =
        (subscription.validate .none [.str "mail", .str "again", .str "news"]).validator.fields := by
  have hanswer : (subscription.validate .none [.str "mail", .str "again", .str "news"]).answer =
      .ok true := ok_of_toOption (by decide +kernel)
  obtain ⟨hiff, hfields⟩ := validate_perm reachable_subscription rfl (by decide) (by decide)
    (by decide) (by decide) orderKept_subscription
  exact ⟨(hiff true).1 hanswer, hfields true hanswer⟩

/-- In runs with built-in checks and filters and without validation callbacks, targets that are
different declared names without signs give the same answer and the same messages in every order. -/
def OrderIndependent : Prop :=
  ∀ {hooks : Hooks} {v : Validator} {ts ts' : List String} {b b' : Bool},
    Reachable hooks v → v.directives = .builtin → v.filters = .builtin →
      (∀ e ∈ v.fields, e.2.validation.isCallback = false) →
        (∀ e ∈ v.fields, ∀ filter ∈ e.2.filters, filter.isCallback = false) →
          ts.Perm ts' → ts.Nodup → (∀ t ∈ ts, (v.fields.lookup (.str t)).isSome = true) →
            (∀ t ∈ ts, (Toggle.parse t).2 = .declared) →
              (v.validate hooks (ts.map .str)).answer = .ok b →
                (v.validate hooks (ts'.map .str)).answer = .ok b' →
                  b = b' ∧ (v.validate hooks (ts.map .str)).validator.fieldErrors =
                    (v.validate hooks (ts'.map .str)).validator.fieldErrors

/-- The order can make a difference: a field matches another one once that is trimmed, but not
before. -/
theorem not_orderIndependent : ¬OrderIndependent := by
  intro h
  have hfirst : (subscription.validate .none [.str "mail", .str "again"]).answer = .ok true :=
    ok_of_toOption (by decide +kernel)
  have hlast : (subscription.validate .none [.str "again", .str "mail"]).answer = .ok false :=
    ok_of_toOption (by decide +kernel)
  have hperm : List.Perm ["mail", "again"] ["again", "mail"] := .swap _ _ _
  have hsame := h reachable_subscription rfl rfl (by decide) (by decide) hperm (by decide)
    (by decide) (by decide) hfirst hlast
  cases hsame.1

end Validator

end ParamCheck
