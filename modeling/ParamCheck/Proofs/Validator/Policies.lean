import ParamCheck.Proofs.Validator.Abort
import ParamCheck.Proofs.Validator.Abreast
import ParamCheck.Proofs.Validator.Answer
import ParamCheck.Proofs.Validator.Construction
import ParamCheck.Proofs.Validator.Passing
import ParamCheck.Proofs.Validator.Selection

/-!
# One run under several policies

A name that is selected and is not declared is a fault under the strict policy. A tolerant policy
passes it over, and may report it. If all selected names are declared, the policies make no difference
(`Run.run_checkFields_under`); otherwise the strict run fails for the first name that is not, and two
tolerant runs differ in nothing but their reports (`Validator.compared`).
-/

namespace ParamCheck

/-- Whatever is undeclared is passed over and not reported. -/
def Policy.ignoring : Policy where
  ignoreUnknown := true

namespace Report

/-- A report holds a text once if it holds it at all. -/
theorem Unrepeated.filter_same {messages : List Value} (h : Unrepeated messages) {s : String}
    (hany : messages.any (Value.str s).same = true) :
    messages.filter (Value.str s).same = [.str s] := by
  have hall : ∀ m ∈ messages.filter (Value.str s).same, m = .str s :=
    fun m hm => Value.eq_of_str_same (List.mem_filter.1 hm).2
  have hnodup : (messages.filter (Value.str s).same).Nodup := h.nodup.filter _
  obtain ⟨m, hm, hsame⟩ := List.any_eq_true.1 hany
  have hmem : m ∈ messages.filter (Value.str s).same := List.mem_filter.2 ⟨hm, hsame⟩
  rw [List.eq_replicate_of_mem hall] at hnodup hmem ⊢
  obtain ⟨hne, rfl⟩ := List.mem_replicate.1 hmem
  have hone := List.nodup_replicate.1 hnodup
  rw [show (messages.filter (Value.str s).same).length = 1 by omega]
  rfl

end Report

namespace Validator

/-- The validator under another policy on what is undeclared. -/
def under (v : Validator) (p : Policy) : Validator :=
  { v with options := { v.options with policy := p } }

/-- Declarations that the strict policy accepts are resolved alike under every policy. -/
theorem create_under {report : Bool} {o : DelimiterOptions} {params : Value} {d : Declarations}
    {v : Validator} (h : (create ⟨.strict report, o⟩ params d).1 = .ok v) (p : Policy) :
    (create ⟨p, o⟩ params d).1 = .ok (v.under p) := by
  obtain ⟨k, hstrict⟩ : ∃ k, Returns (build ⟨.strict report, o⟩ params d) {} v k :=
    ⟨_, Prod.ext h rfl⟩
  have hmap : ∀ {options : Options} {w : Validator} {k : Journal},
      Returns ((fun v : Validator => { v with options := default }) <$> build options params d) {} w k
        ↔ ∃ u, Returns (build options params d) {} u k ∧ { u with options := default } = w := by
    intro options w k
    rw [map_eq_pure_bind, Returns.bind_iff]
    constructor
    · rintro ⟨u, _, hu, hw⟩
      obtain ⟨rfl, rfl⟩ := Returns.pure_iff.1 hw
      exact ⟨u, hu, rfl⟩
    · rintro ⟨u, hu, rfl⟩
      exact ⟨u, k, hu, Returns.pure_iff.2 ⟨rfl, rfl⟩⟩
  obtain ⟨w, hw, heq⟩ :=
    hmap.1 ((foretells_build o params d).passes report p {} _ k (hmap.2 ⟨v, hstrict, rfl⟩))
  have hresult : (create ⟨p, o⟩ params d).1 = .ok w := congrArg Prod.fst hw
  -- The two are the same but for their options, which are those that are given.
  have hv : v.options = ⟨.strict report, o⟩ := (build_returns hstrict).1
  have hwo : w.options = ⟨p, o⟩ := (build_returns hw).1
  have hsame : w = { v with options := w.options } :=
    congrArg (fun u : Validator => { u with options := w.options }) heq
  rw [hresult, hsame, hwo]
  unfold under
  rw [hv]

end Validator

namespace Run

variable {hooks : Hooks} {v : Validator} {plan : Plan} {name value : Value} {f : Field}

/-- The checks of directives do not go by the policy. -/
theorem checkDirectives_under (p : Policy) (ds : List (Value × Value)) :
    checkDirectives hooks (v.under p) name value ds = checkDirectives hooks v name value ds := by
  induction ds with
  | nil => rfl
  | cons d rest ih =>
    obtain ⟨key, argument⟩ := d
    rw [checkDirectives, checkDirectives, ih]
    rfl

/-- The check of a field does not go by the policy. -/
theorem checkField_under (p : Policy) :
    checkField hooks (v.under p) plan name f = checkField hooks v plan name f := by
  have hvalue : ∀ value,
      checkValue hooks (v.under p) plan name value f = checkValue hooks v plan name value f := by
    intro value
    unfold checkValue
    rw [checkDirectives_under]
  unfold checkField
  simp only [hvalue]
  rfl

/-- The turn of a field does not go by the policy. -/
theorem run_checkName_under (p : Policy) {name : String} {run : Run}
    (hf : run.fields.lookup (.str name) = some f) :
    (checkName hooks (v.under p) plan name).run run = (checkName hooks v plan name).run run := by
  have hget : Returns (get : RunM Run) run run run := Returns.get_iff.2 ⟨rfl, rfl⟩
  unfold checkName
  rw [hget.run_bind, hget.run_bind, hf]
  dsimp only
  rw [checkField_under]

/-- Turns of declared names do not go by the policy. -/
theorem run_checkFields_under (hnames : ∀ e ∈ v.fields, e.2.name = e.1) (p : Policy)
    {names : List String} (hdeclared : ∀ name ∈ names, v.fields.lookup (.str name) ≠ none) :
    ∀ {run : Run}, run.Keeps v.fields →
      (checkFields hooks (v.under p) plan names).run run =
        (checkFields hooks v plan names).run run := by
  induction names with
  | nil => exact fun _ => rfl
  | cons name rest ih =>
    intro run hkeeps
    obtain ⟨hname, hrest⟩ := List.forall_mem_cons.1 hdeclared
    obtain ⟨f, hf⟩ : ∃ f, run.fields.lookup (.str name) = some f := by
      rw [← hkeeps, Entries.lookup_mapValues, Ne, Option.map_eq_none_iff] at hname
      exact Option.ne_none_iff_exists'.1 hname
    have hafter : ((checkName hooks v plan name).run run).2.Keeps v.fields :=
      checkName_keeps hooks v plan hnames hkeeps name
    rw [checkFields, checkFields, run_bind, run_bind, run_checkName_under p hf]
    rcases hturn : (checkName hooks v plan name).run run with ⟨r, u⟩
    rw [hturn] at hafter
    cases r with
    | ok a => exact ih hrest hafter
    | error e => rfl

/-- Two tolerant policies pass over a name that is no field, whatever they report. -/
theorem abreast_unknown {p q : Policy} (hp : p.ignoreUnknown = true) (hq : q.ignoreUnknown = true)
    {r s : Run} (h : r.silent = s.silent) (name : String) :
    Abreast (unknown (v.under p) (.unknownField (.str name)))
      (unknown (v.under q) (.unknownField (.str name))) r s := by
  have htolerate : ∀ {p : Policy}, p.ignoreUnknown = true → ∀ j, ∃ messages,
      p.tolerate (.unknownField (.str name)) j =
        .ok { messages, notes := j.notes ++ [.ignored (.unknownField (.str name))] } := by
    intro p hp j
    rw [Policy.tolerate_unknownField, if_pos hp]
    exact ⟨_, rfl⟩
  obtain ⟨ms, rfl⟩ := exists_messages_of_silent h
  obtain ⟨_, hr⟩ := htolerate hp ⟨r.messages, r.notes⟩
  obtain ⟨_, hs⟩ := htolerate hq ⟨ms, r.notes⟩
  refine Abreast.get_bind ?_
  unfold Validator.under
  dsimp only
  rw [hr, hs]
  exact ⟨rfl, rfl⟩

/-- The turn of a name under two tolerant policies. -/
theorem abreast_checkName (hv : v.Plain) {p q : Policy} (hp : p.ignoreUnknown = true)
    (hq : q.ignoreUnknown = true) {r s : Run} (h : r.silent = s.silent)
    (hkeeps : r.Keeps v.fields) (name : String) :
    Abreast (checkName hooks (v.under p) plan name) (checkName hooks (v.under q) plan name) r s := by
  obtain ⟨ms, rfl⟩ := exists_messages_of_silent h
  refine Abreast.get_bind ?_
  dsimp only
  cases hf : r.fields.lookup (.str name) with
  | none => exact abreast_unknown hp hq h _
  | some f =>
    dsimp only
    obtain ⟨-, hself⟩ := hkeeps.lookup_turn hv.names hf
    obtain ⟨l, hl, -⟩ := Entries.exists_mem_of_lookup
      (hself ((plan.toggles.lookup (.str name)).getD .declared))
    refine (Abreast.modified ?_).bind fun _ r' s' _ h' => ?_
    · rfl
    · rw [checkField_under, checkField_under]
      exact abreast_checkField hv.checks h' _ (hv.validation _ hl)

/-- Turns under two tolerant policies. -/
theorem abreast_checkFields (hv : v.Plain) {p q : Policy} (hp : p.ignoreUnknown = true)
    (hq : q.ignoreUnknown = true) (names : List String) :
    ∀ {r s : Run}, r.silent = s.silent → r.Keeps v.fields →
      Abreast (checkFields hooks (v.under p) plan names) (checkFields hooks (v.under q) plan names)
        r s := by
  induction names with
  | nil => exact fun h _ => .pure h ()
  | cons name rest ih =>
    intro r s h hkeeps
    refine (abreast_checkName hv hp hq h hkeeps name).bind fun _ r' s' hr h' => ?_
    exact ih h' (hr.leaves_iff.1 (checkName_keeps hooks (v.under p) plan hv.names hkeeps name))

end Run

namespace Validator

variable {hooks : Hooks} {v : Validator} {targets : List Value} {selected : List String}

/-- The first of the selected names that is not declared. -/
def undeclared? (v : Validator) (selected : List String) : Option String :=
  selected.find? fun name => (v.fields.lookup (.str name)).isNone

/-- The filters of every field that is selected can be run on its parameter, and its checks can be
carried out on what they leave when its turn comes. -/
def Works (hooks : Hooks) (v : Validator) (targets : List Value) : Prop :=
  ∀ plan run₀,
    Returns (v.resetFields.plan targets) { params := v.params, fields := v.resetFields.fields }
      plan run₀ →
    ∀ before name after, plan.selected = before ++ name :: after →
      ∀ f, v.fields.lookup (.str name) = some f →
        ∃ x, f.checkedValue hooks.filter v.filters (run₀.params.lookup (.str name)) = .ok x ∧
          ({ f with toggle := (plan.toggles.lookup (.str name)).getD .declared } : Field).Checkable
            hooks.search v.directives plan.hasParams x
            ⟨checkedParams hooks v (before ++ [name]) run₀.params, v.fields⟩

/-- How the runs of a validator under the strict policy and under the two tolerant ones compare, given
the names that are selected. -/
structure Compared (hooks : Hooks) (v : Validator) (targets : List Value) (selected : List String) :
    Prop where
  /-- The strict run fails for the first name that is not declared. -/
  refused : ∀ report name, v.undeclared? selected = some name →
    ∃ fault, ((v.under (.strict report)).validate hooks targets).answer = .error fault ∧
      fault.kind = .unknownField ∧
      fault.message? = some ("Data validation field " ++ name ++ " does not exist")
  /-- If all names are declared, the policy makes no difference. -/
  agreed : v.undeclared? selected = none → ∃ (b : Bool) (w : Validator), ∀ p,
    ((v.under p).validate hooks targets).answer = .ok b ∧
      ((v.under p).validate hooks targets).validator = w.under p
  /-- The tolerant runs return and differ in their reports only. The one that reports has a message
  for every name that is not declared, and returns false if there is such a name. -/
  tolerated : ∃ (b b' : Bool) (w : Validator) (messages : List Value),
    ((v.under .ignoring).validate hooks targets).answer = .ok b ∧
      ((v.under .ignoring).validate hooks targets).validator = w.under .ignoring ∧
      ((v.under .lenient).validate hooks targets).answer = .ok b' ∧
      ((v.under .lenient).validate hooks targets).validator =
        { w with messages }.under .lenient ∧
      ∀ name ∈ selected, v.fields.lookup (.str name) = none →
        messages.filter
            (Value.str ("Data validation field " ++ name ++ " does not exist")).same =
          [.str ("Data validation field " ++ name ++ " does not exist")] ∧
          b' = false

/-- A name that is found is selected and not declared, and the names before it are declared. -/
theorem undeclared?_eq_some {name : String} (h : v.undeclared? selected = some name) :
    v.fields.lookup (.str name) = none ∧ ∃ before after, selected = before ++ name :: after ∧
      ∀ n ∈ before, v.fields.lookup (.str n) ≠ none := by
  obtain ⟨hname, before, after, hsplit, hbefore⟩ := List.find?_eq_some_iff_append.1 h
  refine ⟨Option.isNone_iff_eq_none.1 hname, before, after, hsplit, fun n hn => ?_⟩
  have hdeclared := hbefore n hn
  intro hnone
  rw [hnone] at hdeclared
  cases hdeclared

/-- All names are declared if none is found that is not. -/
theorem undeclared?_eq_none (h : v.undeclared? selected = none) :
    ∀ name ∈ selected, v.fields.lookup (.str name) ≠ none := by
  intro name hname
  have hdeclared := List.find?_eq_none.1 h name hname
  exact fun hnone => hdeclared (Option.isNone_iff_eq_none.2 hnone)

/-- The state in which the plan of a run starts. -/
def start (v : Validator) : Run := { params := v.params, fields := v.resetFields.fields }

/-- The validator after a run. -/
def after (v : Validator) (run : Run) : Validator :=
  { v.resetFields with
    params := writeBack v.params run.filtered
    fields := run.fields
    messages := run.messages
    sharing := sharingAfter v.resetFields.sharing v.params run }

/-- The outcome of a run, given the state in which it ends. -/
theorem validate_of_run {outcome : Except Fault Unit} {run : Run}
    (h : (runTargets hooks v.resetFields targets).run v.start = (outcome, run)) :
    (v.validate hooks targets).answer = outcome.map (fun _ => run.messages.isEmpty) ∧
      (v.validate hooks targets).validator = v.after run := by
  change (runTargets hooks v.resetFields targets).run
    { params := v.resetFields.params, fields := v.resetFields.fields } = _ at h
  unfold validate
  dsimp only
  rw [h]
  exact ⟨rfl, rfl⟩

/-- A run of which the plan is made, and the turns can be taken. -/
structure Ready (hooks : Hooks) (v : Validator) (targets : List Value) (plan : Plan) (run₀ : Run) :
    Prop where
  planned : Returns (v.resetFields.plan targets) v.start plan run₀
  plain : v.resetFields.Plain
  keeps : run₀.Keeps v.resetFields.fields
  distinct : run₀.params.Distinct
  nodup : plan.selected.Nodup

variable {plan : Plan} {run₀ : Run}

/-- The turn of a field passes under every policy, and whatever the state of the fields before the run
is, if there is a value that can be checked. -/
theorem passes_under_iff (p : Policy) (params : Entries Value) (before : List String) (name : String) :
    Passes hooks (v.resetFields.under p) plan params before name ↔
      (v.fields.lookup (.str name) = none → p.ignoreUnknown = true) ∧
      ∀ f, v.fields.lookup (.str name) = some f →
        ∃ x, f.checkedValue hooks.filter v.filters (params.lookup (.str name)) = .ok x ∧
          ({ f with toggle := (plan.toggles.lookup (.str name)).getD .declared } : Field).Checkable
            hooks.search v.directives plan.hasParams x
            ⟨checkedParams hooks v (before ++ [name]) params, v.fields⟩ := by
  have hlookup : (v.resetFields.under p).fields.lookup (.str name) =
      (v.fields.lookup (.str name)).map Field.reset := Entries.lookup_mapValues _ _ _
  have hparams : checkedParams hooks (v.resetFields.under p) (before ++ [name]) params =
      checkedParams hooks v (before ++ [name]) params := checkedParams_resetFields _ _
  unfold Passes
  rw [hlookup, hparams]
  cases hf : v.fields.lookup (.str name) with
  | none => exact ⟨fun h => ⟨fun _ => h, fun f hf => by cases hf⟩, fun h => h.1 rfl⟩
  | some f =>
    generalize (plan.toggles.lookup (.str name)).getD .declared = toggle
    have hkeeps : Run.Keeps v.resetFields.fields { params, fields := v.fields } := rfl
    have hsame : ({ f.reset with toggle } : Field).reset = ({ f with toggle } : Field).reset := rfl
    have hcheckable : ∀ x, ({ f.reset with toggle } : Field).Checkable hooks.search v.directives
          plan.hasParams x ⟨checkedParams hooks v (before ++ [name]) params, v.resetFields.fields⟩ ↔
        ({ f with toggle } : Field).Checkable hooks.search v.directives plan.hasParams x
          ⟨checkedParams hooks v (before ++ [name]) params, v.fields⟩ :=
      fun x => Field.checkable_congr hsame rfl _ _ _ x (hkeeps.alike _).symm
    constructor
    · rintro ⟨x, hx, hchecks⟩
      refine ⟨fun hnone => absurd hnone (Option.some_ne_none f), fun g hg => ?_⟩
      obtain rfl := Option.some.inj hg
      exact ⟨x, hx, (hcheckable x).1 hchecks⟩
    · rintro ⟨-, hchecks⟩
      obtain ⟨x, hx, hx'⟩ := hchecks f rfl
      exact ⟨x, hx, (hcheckable x).2 hx'⟩

namespace Ready

variable (h : Ready hooks v targets plan run₀)

include h

/-- The validator is plain under every policy. -/
theorem plain_under (p : Policy) : (v.resetFields.under p).Plain :=
  ⟨h.plain.checks, h.plain.names, h.plain.validation⟩

/-- After its plan, a run under any policy takes the turns of the selected names. -/
theorem run_eq (p : Policy) :
    (runTargets hooks (v.resetFields.under p) targets).run v.start =
      (Run.checkFields hooks (v.resetFields.under p) plan plan.selected).run run₀ := by
  have hplan : Returns ((v.resetFields.under p).plan targets) v.start plan run₀ := h.planned
  exact hplan.run_bind

/-- If filters and checks can be carried out, the first turns do not fail if their names are declared or
the policy is tolerant. -/
theorem settles (hworks : v.Works hooks targets) (p : Policy) {names rest : List String}
    (hfirst : plan.selected = names ++ rest)
    (hp : ∀ n ∈ names, v.fields.lookup (.str n) = none → p.ignoreUnknown = true) :
    Settles (Run.checkFields hooks (v.resetFields.under p) plan names) run₀ := by
  have hnames : names.Nodup := (List.nodup_append.1 (hfirst ▸ h.nodup)).1
  refine (checkFields_settles_iff (h.plain_under p) hnames h.keeps h.distinct).2
    fun before name after hsplit => ?_
  have hselected : plan.selected = before ++ name :: (after ++ rest) := by
    rw [hfirst, hsplit, List.append_assoc, List.cons_append]
  exact (passes_under_iff p _ _ _).2
    ⟨hp name (hsplit ▸ List.mem_append_right before List.mem_cons_self),
      hworks plan run₀ h.planned before name _ hselected⟩

/-- Filters and checks can be carried out if a run returns that ignores what is undeclared. -/
theorem works {b : Bool} (hb : ((v.under .ignoring).validate hooks targets).answer = .ok b) :
    v.Works hooks targets := by
  obtain ⟨u, hrun, -⟩ := map_eq_ok_iff.1 hb
  have hturns : Settles (Run.checkFields hooks (v.resetFields.under .ignoring) plan plan.selected)
      run₀ := by
    refine ⟨u, _, Prod.ext ?_ rfl⟩
    rw [← h.run_eq]
    exact hrun
  intro plan' run₀' hplan before name after hsplit
  obtain ⟨rfl, rfl⟩ := h.planned.unique hplan
  have hpasses := (checkFields_settles_iff (h.plain_under .ignoring) h.nodup h.keeps
    h.distinct).1 hturns before name after hsplit
  exact ((passes_under_iff .ignoring _ _ _).1 hpasses).2

/-- The strict run fails for the first name that is not declared. -/
theorem answer_strict (hworks : v.Works hooks targets) (report : Bool) {name : String}
    (hname : v.undeclared? plan.selected = some name) :
    ((v.under (.strict report)).validate hooks targets).answer =
      .error (.unknownField (.str name)) := by
  obtain ⟨hnone, before, after, hsplit, hbefore⟩ := undeclared?_eq_some hname
  -- The turns before that of the name return.
  obtain ⟨_, r, hr⟩ := h.settles hworks (.strict report) hsplit
    fun n hn hn' => absurd hn' (hbefore n hn)
  have hkeeps : r.Keeps v.resetFields.fields := hr.leaves_iff.1
    (Run.checkFields_keeps hooks (v.resetFields.under (.strict report)) plan h.plain.names before
      h.keeps)
  have hturn : (Run.checkName hooks (v.resetFields.under (.strict report)) plan name).run r =
      (.error (.unknownField (.str name)), r) := by
    have hget : Returns (get : RunM Run) r r r := Returns.get_iff.2 ⟨rfl, rfl⟩
    rw [Run.checkName, hget.run_bind,
      hkeeps.lookup_eq_none (lookup_resetFields_eq_none_iff.2 hnone)]
    rfl
  have hrun : (runTargets hooks (v.resetFields.under (.strict report)) targets).run v.start =
      (.error (.unknownField (.str name)), r) := by
    rw [h.run_eq, hsplit, run_checkFields_append _ hr, Run.checkFields, run_bind, hturn]
  exact (validate_of_run (v := v.under (.strict report)) hrun).1

/-- If all names are declared, the policy makes no difference. -/
theorem validate_declared (hworks : v.Works hooks targets)
    (hnone : v.undeclared? plan.selected = none) :
    ∃ (b : Bool) (w : Validator), ∀ p, ((v.under p).validate hooks targets).answer = .ok b ∧
      ((v.under p).validate hooks targets).validator = w.under p := by
  have hdeclared := undeclared?_eq_none hnone
  obtain ⟨u, r, hr⟩ := h.settles hworks .ignoring (List.append_nil _).symm
    fun n hn hn' => absurd hn' (hdeclared n hn)
  refine ⟨r.messages.isEmpty, v.after r, fun p => ?_⟩
  have hrun : (runTargets hooks (v.resetFields.under p) targets).run v.start = (.ok u, r) := by
    have hreset : ∀ name ∈ plan.selected, v.resetFields.fields.lookup (.str name) ≠ none :=
      fun name hname hnone => hdeclared name hname (lookup_resetFields_eq_none_iff.1 hnone)
    rw [h.run_eq, Run.run_checkFields_under h.plain.names p hreset h.keeps,
      ← Run.run_checkFields_under h.plain.names .ignoring hreset h.keeps]
    exact hr
  exact validate_of_run (v := v.under p) hrun

/-- Two tolerant runs return, and they differ in nothing but their reports. -/
theorem validate_tolerant (hworks : v.Works hooks targets) {p q : Policy}
    (hp : p.ignoreUnknown = true) (hq : q.ignoreUnknown = true) :
    ∃ (b b' : Bool) (w : Validator) (messages : List Value),
      ((v.under p).validate hooks targets).answer = .ok b ∧
        ((v.under p).validate hooks targets).validator = w.under p ∧
        ((v.under q).validate hooks targets).answer = .ok b' ∧
        ((v.under q).validate hooks targets).validator = { w with messages }.under q := by
  obtain ⟨u, r, hr⟩ := h.settles hworks p (List.append_nil _).symm fun _ _ _ => hp
  obtain ⟨u', s, hs⟩ := h.settles hworks q (List.append_nil _).symm fun _ _ _ => hq
  have habreast : Run.Abreast (Run.checkFields hooks (v.resetFields.under p) plan plan.selected)
      (Run.checkFields hooks (v.resetFields.under q) plan plan.selected) run₀ run₀ :=
    Run.abreast_checkFields h.plain hp hq plan.selected rfl h.keeps
  obtain ⟨-, hstate⟩ := habreast
  have hsilent : r.silent = s.silent := by
    unfold Returns at hr hs
    rw [hr, hs] at hstate
    exact hstate
  obtain ⟨messages, rfl⟩ := Run.exists_messages_of_silent hsilent
  have hrun := validate_of_run (v := v.under p) ((h.run_eq p).trans hr)
  have hrun' := validate_of_run (v := v.under q) ((h.run_eq q).trans hs)
  exact ⟨_, _, v.after r, messages, hrun.1, hrun.2, hrun'.1, hrun'.2⟩

end Ready

section

variable (hv : v.Consistent) (hdirectives : v.directives = .builtin)
  (hcallback : ∀ e ∈ v.fields, e.2.validation.isCallback = false)

include hv hdirectives hcallback

/-- If names are selected, the turns can be taken. -/
theorem exists_ready (hooks : Hooks) (hselected : v.selected? targets = some selected) :
    ∃ plan run₀, Ready hooks v targets plan run₀ ∧ plan.selected = selected := by
  unfold selected? at hselected
  obtain ⟨plan, hok, rfl⟩ := Option.map_eq_some_iff.1 hselected
  have hplan : Returns (v.resetFields.plan targets) v.start plan _ :=
    Prod.ext (ok_of_toOption hok) rfl
  exact ⟨plan, _, ⟨hplan, hv.plain hdirectives hcallback, plan_keeps hplan,
    distinct_plan hv.params_distinct hplan, hv.nodup_selected hplan⟩, rfl⟩

/-- A run under the strict policy, and runs under the two tolerant ones, compare as they should if
filters and checks can be carried out. -/
theorem compared (hselected : v.selected? targets = some selected)
    (hworks : v.Works hooks targets) : v.Compared hooks targets selected := by
  obtain ⟨plan, run₀, h, rfl⟩ := exists_ready hv hdirectives hcallback hooks hselected
  refine ⟨fun report name hname => ?_, h.validate_declared hworks, ?_⟩
  · exact ⟨_, h.answer_strict hworks report hname, rfl, rfl⟩
  · obtain ⟨b, b', w, messages, hb, hw, hb', hw'⟩ :=
      h.validate_tolerant hworks (p := .ignoring) (q := .lenient) rfl rfl
    refine ⟨b, b', w, messages, hb, hw, hb', hw', fun name hname hnone => ?_⟩
    have hnamed : (v.under .lenient).Named := hv.named
    have hmessages : ((v.under .lenient).validate hooks targets).validator.messages = messages := by
      rw [hw']
      rfl
    have hstray : (v.under .lenient).Stray (((v.under .lenient).selected? targets).getD [])
        (.str ("Data validation field " ++ name ++ " does not exist")) := by
      have hsame : (v.under .lenient).selected? targets = v.selected? targets := rfl
      rw [hsame, hselected, Option.getD_some]
      exact ⟨rfl, rfl, name, hname, hnone, rfl⟩
    have hany := any_messages_of_stray hnamed hb' hstray
    have honce := (balanced_validate hnamed hooks targets).once
    have hanswer := answer_iff hb'
    rw [hmessages] at hany honce
    refine ⟨honce.filter_same hany, ?_⟩
    rw [← Bool.not_eq_true, hanswer, errorCount, List.length_eq_zero_iff, hmessages]
    rintro rfl
    cases hany

end

/-- Declarations that the strict policy accepts are resolved alike under every policy. Whatever is
requested of the validators under the strict policy and the two tolerant ones, names are selected, and
the runs compare as they should if filters and checks can be carried out. If nothing is requested and
nothing is in the queue, an undeclared name is selected exactly when some parameter is neither that of
a field nor that of an alias. -/
theorem validate_policies {hooks : Hooks} {report : Bool} {o : DelimiterOptions} {params : Value}
    {d : Declarations} {v : Validator} (hv : (create ⟨.strict report, o⟩ params d).1 = .ok v)
    (hparams : params.KeysDiffer) (hfields : d.fields.KeysDiffer)
    (hdirectives : v.directives = .builtin)
    (hcallback : ∀ e ∈ v.fields, e.2.validation.isCallback = false)
    (hnames : Value.AllTexts v.fields.keys) (hkeys : Value.AllTexts v.params.keys)
    (queue : List String) (q : Request)
    (hworks : (v.enqueue (queue.map .str)).Works hooks q.targets) :
    (∀ p, (create ⟨p, o⟩ params d).1 = .ok (v.under p)) ∧
      ∃ selected, (v.enqueue (queue.map .str)).selected? q.targets = some selected ∧
        (v.enqueue (queue.map .str)).Compared hooks q.targets selected ∧
        (q = .names [] → queue = [] →
          ((∃ name, v.undeclared? selected = some name) ↔
            ∃ k ∈ v.params.keys, v.fields.lookup k = none ∧ ∀ e ∈ v.fields, k ∉ e.2.aliases)) := by
  have hconsistent := consistent_create hparams hfields hv
  have hqueue : v.queue = [] := by
    obtain ⟨k, hbuild⟩ : ∃ k, Returns (build ⟨.strict report, o⟩ params d) {} v k :=
      ⟨_, Prod.ext hv rfl⟩
    exact (build_returns hbuild).2.2.2.1
  have hready := hconsistent.resetFields
  have hnames' : Value.AllTexts (v.enqueue (queue.map .str)).resetFields.fields.keys := by
    show Value.AllTexts (v.fields.mapValues Field.reset).keys
    rw [Entries.keys_mapValues]
    exact hnames
  have hqueued : (v.enqueue (queue.map .str)).resetFields.queue = queue.map .str := by
    show v.queue ++ queue.map .str = _
    rw [hqueue, List.nil_append]
  have hstart : Value.AllTexts (v.enqueue (queue.map .str)).start.params.keys := hkeys
  obtain ⟨plan, run₀, hplan⟩ :=
    plan_returns (v := (v.enqueue (queue.map .str)).resetFields) hready.fits hnames' hqueued q hstart
  have hselected := selected?_eq hplan
  refine ⟨create_under hv, plan.selected, hselected, ?_, ?_⟩
  · exact compared (hconsistent.of_declared hconsistent.params_distinct rfl) hdirectives hcallback
      hselected hworks
  · rintro rfl rfl
    have hundeclared := exists_undeclared_iff (v := (v.enqueue ([].map .str)).resetFields)
      hready.fits hready.fields_distinct hqueued hstart hplan
    have haliases : ∀ k : Value, (∀ e ∈ v.resetFields.fields, k ∉ e.2.aliases) ↔
        ∀ e ∈ v.fields, k ∉ e.2.aliases := fun k => List.forall_mem_map
    constructor
    · rintro ⟨name, hname⟩
      obtain ⟨hnone, before, after, hsplit, -⟩ := undeclared?_eq_some hname
      have hmem : name ∈ plan.selected :=
        hsplit ▸ List.mem_append_right before List.mem_cons_self
      obtain ⟨k, hk, hnone', halias⟩ :=
        hundeclared.1 ⟨name, hmem, lookup_resetFields_eq_none_iff.2 hnone⟩
      exact ⟨k, hk, lookup_resetFields_eq_none_iff.1 hnone', (haliases k).1 halias⟩
    · rintro ⟨k, hk, hnone, halias⟩
      obtain ⟨name, hname, hnone'⟩ := hundeclared.2
        ⟨k, hk, lookup_resetFields_eq_none_iff.2 hnone, (haliases k).2 halias⟩
      -- A name that is not declared is among those that are selected, and so a first one is found.
      cases hfind : v.undeclared? plan.selected with
      | some first => exact ⟨first, rfl⟩
      | none =>
        exact absurd (lookup_resetFields_eq_none_iff.1 hnone')
          (undeclared?_eq_none hfind name hname)

/-- A strict validator for a name and for an address that can be given under another name. -/
def guestbook : Validator where
  options := { policy := .strict false }
  directives := .builtin
  filters := .builtin
  children := []
  mixins := []
  aliases :=
    { fields := [(.str "email", [.str "mail"])], aliases := [(.str "mail", .str "email")] }
  warnings := []
  fields := [
    (.str "email", { name := .str "email", directives := [(.str "alias", .list [.str "mail"]),
      (.str "filters", .list [.str "trim"])] }),
    (.str "name", { name := .str "name", directives := [(.str "max_length", .int 3),
      (.str "filters", .list [])] })]
  params := [(.str "mail", .str " x "), (.str "nick", .str "y"), (.str "name", .str "Anna")]

/-- In a run for all parameters of the guest book one of them is undeclared, and the policies compare
as they should. -/
theorem validate_policies_guestbook :
    guestbook.undeclared? ["nick", "name", "email"] = some "nick" ∧
      guestbook.Compared .none [] ["nick", "name", "email"] := by
  have hcreate : (create guestbook.options (.dict guestbook.params)
      { fields := .dict (guestbook.fields.mapValues fun f => .dict f.directives) }).1 =
        .ok guestbook := rfl
  have hparams : (Value.dict guestbook.params).KeysDiffer := by unfold Value.KeysDiffer; decide
  have hfields : (Value.dict (guestbook.fields.mapValues fun f => .dict f.directives)).KeysDiffer := by
    unfold Value.KeysDiffer
    decide
  have hnames : Value.AllTexts guestbook.fields.keys := Value.allTexts_map ["email", "name"]
  have hkeys : Value.AllTexts guestbook.params.keys :=
    Value.allTexts_map ["mail", "nick", "name"]
  have hcallback : ∀ e ∈ guestbook.fields, e.2.validation.isCallback = false := by decide +kernel
  have hselected : guestbook.selected? [] = some ["nick", "name", "email"] := by decide +kernel
  have hundeclared : guestbook.undeclared? ["nick", "name", "email"] = some "nick" := by
    decide +kernel
  have hworks : guestbook.Works .none [] := by
    obtain ⟨plan, run₀, hready, -⟩ :=
      exists_ready (consistent_create hparams hfields hcreate) rfl hcallback .none hselected
    exact hready.works (b := false) (ok_of_toOption (by decide +kernel))
  obtain ⟨-, selected, hsame, hcompared, -⟩ :=
    validate_policies hcreate hparams hfields rfl hcallback hnames hkeys [] (.names []) hworks
  obtain rfl := Option.some.inj (hselected.symm.trans hsame)
  exact ⟨hundeclared, hcompared⟩

end Validator

end ParamCheck
