import ParamCheck.Proofs.Check.Arguments
import ParamCheck.Proofs.Validator.Policies

/-!
# Runs that return

A run that tolerates what is undeclared returns, whatever values it is given, if its fields are well
declared: if their filters and checks are the ones that are always at hand, and the arguments of the
checks have the form that is asked for (`Validator.WellDeclared`). The one exception is a field whose
value meets a limit on numbers when an integer is involved that no double can hold
(`Validator.validate_returns_iff`).
-/

namespace ParamCheck

/-- Filters that are always at hand make a text of a text. -/
theorem runFilterList_builtin (hook : FilterHook) {entries : List Value}
    (h : Value.AllTexts entries) :
    ∀ s, ∃ t, runFilterList hook .builtin entries (.str s) = .ok (.str t) := by
  induction entries with
  | nil => exact fun s => ⟨s, rfl⟩
  | cons entry rest ih =>
    obtain ⟨⟨name, rfl⟩, hrest⟩ := List.forall_mem_cons.1 h
    intro s
    have hfind : FilterTable.builtin.find (.str name) =
        .ok (Entries.lookup FilterTable.builtin (.str name)) := rfl
    rw [runFilterList, hfind]
    cases hf : Entries.lookup FilterTable.builtin (.str name) with
    | none => exact ih hrest s
    | some f =>
      obtain ⟨l, hl, -⟩ := Entries.exists_mem_of_lookup hf
      obtain ⟨g, -, heq⟩ := List.mem_map.1 hl
      obtain ⟨-, rfl⟩ := Prod.mk.inj heq
      exact ih hrest (String.ofList (g.onText s.toList))

namespace Field

/-- The filters and checks of a field are to be found under names, the arguments of the checks have
the form that is asked for, and there is no callback. -/
structure WellDeclared (table : DirectiveTable) (f : Field) : Prop where
  filters : Value.AllTexts f.filters
  validation : f.validation = .null
  arguments : ∀ e ∈ f.directives, ∀ c, table.check? e.1 = some (.builtin c) → c.WellFormed e.2
  writable : ∀ e ∈ f.directives, e.2.writable = true

/-- A check of the field reads an integer that is too large as a number when it is made on the
value. -/
def Overflows (table : DirectiveTable) (f : Field) (x : Value) : Prop :=
  (f.isRequired || x.hasValue) = true ∧
    ∃ e ∈ f.directives, ∃ c, table.check? e.1 = some (.builtin c) ∧ c.Overflows e.2 x

variable {table : DirectiveTable} {f : Field}

/-- A field has a value to be checked, whatever parameter it has, if its filters are to be found under names. -/
theorem checkedValue_returns (h : Value.AllTexts f.filters) (hook : FilterHook) (p : Option Value) :
    ∃ x, f.checkedValue hook .builtin p = .ok x := by
  cases p with
  | none => exact ⟨_, rfl⟩
  | some v =>
    cases v with
    | str s =>
      obtain ⟨t, ht⟩ := runFilterList_builtin hook h s
      have hrun : runFilters hook .builtin f.filters (.str s) = .ok (.str t) := ht
      exact ⟨f.orDefault (.str t), map_eq_ok_iff.2 ⟨_, hrun, rfl⟩⟩
    | _ => exact ⟨_, rfl⟩

/-- No limit on numbers is met by what is blank. -/
theorem not_overflows_of_isBlank (c : BuiltinCheck) (argument : Value) {x : Value}
    (hx : x.isBlank = true) : ¬c.Overflows argument x := by
  cases c with
  | sum limit =>
    rintro (⟨n, rfl, -⟩ | ⟨⟨y, hy⟩, -⟩)
    · cases hx
    · cases x with
      | null => cases hy
      | str s =>
        obtain rfl : s = "" := of_decide_eq_true hx
        have hempty : (Value.str "").toFloat.toOption = none := by decide +kernel
        rw [hy] at hempty
        cases hempty
      | _ => cases hx
  | _ => exact id

/-! ### Directives that can be written -/

section

variable (hwritable : ∀ e ∈ f.directives, e.2.writable = true)

include hwritable

/-- Any directive of the field can be written. -/
theorem directive_writable (key : String) : (f.directive key).writable = true := by
  unfold directive
  cases hv : f.directives.lookup (.str key) with
  | none => rfl
  | some v => exact Entries.forall_lookup (P := fun v : Value => v.writable = true) hwritable hv

/-- The handle of the field can be written if its name can. -/
theorem handle_writable (hname : f.name.writable = true) : f.handle.writable = true := by
  unfold handle
  split
  · exact directive_writable hwritable "label"
  · exact hname

/-- The default of the field can be written. -/
theorem default_writable : f.default.writable = true := by
  unfold Field.default
  split
  · next v hv => exact Entries.forall_lookup (P := fun v : Value => v.writable = true) hwritable hv
  · exact directive_writable hwritable "value"

/-- The value of the field that is checked can be written if its parameter can. -/
theorem checkedValue_writable (hfilters : Value.AllTexts f.filters) {hook : FilterHook}
    {p : Option Value} (hp : ∀ v, p = some v → v.writable = true) {x : Value}
    (hx : f.checkedValue hook .builtin p = .ok x) : x.writable = true := by
  have horDefault : ∀ {w : Value}, w.writable = true → (f.orDefault w).writable = true := by
    intro w hw
    unfold orDefault
    split
    · rfl
    · exact default_writable hwritable
    · exact hw
  cases p with
  | none =>
    obtain rfl := Except.ok.inj hx
    exact default_writable hwritable
  | some v =>
    obtain ⟨w, hw, rfl⟩ := map_eq_ok_iff.1 hx
    refine horDefault ?_
    cases v with
    | str s =>
      obtain ⟨t, ht⟩ := runFilterList_builtin hook hfilters s
      have htext : runFilters hook .builtin f.filters (.str s) = .ok (.str t) := ht
      obtain rfl := Except.ok.inj (htext.symm.trans hw)
      rfl
    | _ =>
      obtain rfl := Except.ok.inj hw
      exact hp _ rfl

end

/-- The checks of a field can be carried out on a value unless one of them meets an integer that is
too large, if what they may show can be written. -/
theorem WellDeclared.checkable_iff (h : f.WellDeclared table) (toggle : Toggle) (hasParams : Bool)
    (search : PatternSearch) {x : Value} {scene : Scene} (hlegible : BuiltinCheck.Legible x f scene) :
    ({ f with toggle } : Field).Checkable search table hasParams x scene ↔
      ¬({ f with toggle } : Field).Overflows table x := by
  have hlegible' : BuiltinCheck.Legible x { f with toggle } scene :=
    ⟨hlegible.value, hlegible.handle, hlegible.params, hlegible.handles⟩
  have hanswers : ∀ e ∈ f.directives, ∀ c, table.check? e.1 = some (.builtin c) →
      (c.answers search e.2 x { f with toggle } scene = true ↔ ¬c.Overflows e.2 x) :=
    fun e he c hc => hlegible'.answers_iff c search (h.arguments e he c hc) (h.writable e he)
  unfold Checkable Overflows
  split
  · next hblank =>
    refine iff_of_true hlegible'.handle ?_
    rintro ⟨-, e, -, c, -, hover⟩
    exact not_overflows_of_isBlank c e.2 (Bool.and_eq_true_iff.1 hblank).2 hover
  · constructor
    · rintro ⟨hchecks, -⟩ ⟨hvalue, e, he, c, hc, hover⟩
      exact (hanswers e he c hc).1 (hchecks hvalue e he c hc) hover
    · intro hnone
      refine ⟨fun hvalue e he c hc => ?_, fun _ => h.validation⟩
      exact (hanswers e he c hc).2 fun hover => hnone ⟨hvalue, e, he, c, hc, hover⟩

end Field

namespace Validator

variable {hooks : Hooks} {v : Validator} {targets : List Value} {plan : Plan} {run₀ : Run}

/-- The validator tolerates what is undeclared, its filters and directives are the ones that are
always at hand, and its fields are well declared and stand under names. -/
structure WellDeclared (v : Validator) : Prop where
  directives : v.directives = .builtin
  filters : v.filters = .builtin
  names : Value.AllTexts v.fields.keys
  fields : ∀ e ∈ v.fields, e.2.WellDeclared v.directives
  ignores : v.options.policy.ignoreUnknown = true

/-- The parameters of the validator stand under names, and their values can be written out. -/
structure WellSupplied (v : Validator) : Prop where
  keys : Value.AllTexts v.params.keys
  writable : ∀ e ∈ v.params, e.2.writable = true

/-- The turn of a name meets an integer that is too large: a check of its field does that is made on
the value which filters and the default make of the parameter. -/
def Overflows (hooks : Hooks) (v : Validator) (plan : Plan) (params : Entries Value) (name : String) :
    Prop :=
  ∃ f x, v.fields.lookup (.str name) = some f ∧
    f.checkedValue hooks.filter v.filters (params.lookup (.str name)) = .ok x ∧
    ({ f with toggle := (plan.toggles.lookup (.str name)).getD .declared } : Field).Overflows
      v.directives x

/-- What checks show of the fields can be written: the fields stand under texts, their filters are always at
hand, and their directives can be written. -/
structure Shows (v : Validator) : Prop where
  filters : v.filters = .builtin
  names : Value.AllTexts v.fields.keys
  listed : ∀ e ∈ v.fields, Value.AllTexts e.2.filters
  writable : ∀ e ∈ v.fields, ∀ d ∈ e.2.directives, d.2.writable = true

/-- A well declared validator has fields that can be shown. -/
theorem WellDeclared.shows (h : v.WellDeclared) : v.Shows where
  filters := h.filters
  names := h.names
  listed e he := (h.fields e he).filters
  writable e he := (h.fields e he).writable

/-- The fields stand under their names, which are texts, and so can be written. -/
theorem Shows.name_writable (h : v.Shows) (hnamed : v.Named) {e : Value × Field} (he : e ∈ v.fields) :
    e.2.name.writable = true := by
  obtain ⟨s, hs⟩ := h.names e.1 (List.mem_map_of_mem he)
  have hname : e.2.name = e.1 := hnamed (e.1, e.2.reset) (List.mem_map_of_mem he)
  rw [hname, hs]
  rfl

/-- What the checks of a turn may show can be written. -/
theorem Shows.legible (h : v.Shows) (hnamed : v.Named) {hooks : Hooks}
    {params : Entries Value} (hparams : ∀ e ∈ params, e.2.writable = true) {done : List String}
    {name : String} {f : Field} (hf : v.fields.lookup (.str name) = some f) {x : Value}
    (hx : f.checkedValue hooks.filter v.filters (params.lookup (.str name)) = .ok x) :
    BuiltinCheck.Legible x f ⟨checkedParams hooks v done params, v.fields⟩ := by
  have hhandle : ∀ k g, v.fields.lookup k = some g → g.handle.writable = true := by
    intro k g hg
    obtain ⟨l, hl, -⟩ := Entries.exists_mem_of_lookup hg
    exact Field.handle_writable (h.writable _ hl) (h.name_writable hnamed hl)
  have hvalue : ∀ {k g y p}, v.fields.lookup k = some g → (∀ w, p = some w → w.writable = true) →
      g.checkedValue hooks.filter v.filters p = .ok y → y.writable = true := by
    intro k g y p hg hp hy
    obtain ⟨l, hl, -⟩ := Entries.exists_mem_of_lookup hg
    rw [h.filters] at hy
    exact Field.checkedValue_writable (h.writable _ hl) (h.listed _ hl) hp hy
  have hparam : ∀ {k w}, params.lookup k = some w → w.writable = true :=
    fun hw => Entries.forall_lookup (P := fun v : Value => v.writable = true) hparams hw
  refine ⟨hvalue hf (fun w hw => hparam hw) hx, hhandle _ f hf,
    fun k y hy => ?_, hhandle⟩
  -- Another parameter is as it was, or it has the value that its field was checked for.
  rw [lookup_checkedParams] at hy
  obtain ⟨w, hw, rfl⟩ := Option.map_eq_some_iff.1 hy
  have hwritable := hparam hw
  unfold checkedParam
  split
  · next n =>
    split
    · split
      · next g hg =>
        cases hy : g.checkedValue hooks.filter v.filters (some w) with
        | error e => exact hwritable
        | ok y => exact hvalue hg (fun _ hsome => Option.some.inj hsome ▸ hwritable) hy
      · exact hwritable
    · exact hwritable
  · exact hwritable

/-- A turn of a well declared validator does not fail unless it meets an integer that is too large. -/
theorem WellDeclared.passes_iff (h : v.WellDeclared) (hnamed : v.Named) (hooks : Hooks) (plan : Plan)
    {params : Entries Value} (hparams : ∀ e ∈ params, e.2.writable = true) (before : List String)
    (name : String) :
    Passes hooks v.resetFields plan params before name ↔ ¬v.Overflows hooks plan params name := by
  have hcheckable : ∀ {f}, v.fields.lookup (.str name) = some f → ∀ toggle {x},
      f.checkedValue hooks.filter v.filters (params.lookup (.str name)) = .ok x →
        (({ f with toggle } : Field).Checkable hooks.search v.directives plan.hasParams x
            ⟨checkedParams hooks v (before ++ [name]) params, v.fields⟩ ↔
          ¬({ f with toggle } : Field).Overflows v.directives x) := by
    intro f hf toggle x hx
    obtain ⟨l, hl, -⟩ := Entries.exists_mem_of_lookup hf
    exact (h.fields _ hl).checkable_iff toggle plan.hasParams hooks.search
      (h.shows.legible hnamed hparams hf hx)
  refine (passes_under_iff v.options.policy params before name).trans ?_
  constructor
  · rintro ⟨-, hchecks⟩ ⟨f, x, hf, hx, hover⟩
    obtain ⟨y, hy, hcheck⟩ := hchecks f hf
    obtain rfl := Except.ok.inj (hy.symm.trans hx)
    exact (hcheckable hf _ hx).1 hcheck hover
  · intro hnone
    refine ⟨fun _ => h.ignores, fun f hf => ?_⟩
    obtain ⟨l, hl, -⟩ := Entries.exists_mem_of_lookup hf
    obtain ⟨x, hx⟩ := Field.checkedValue_returns (h.fields _ hl).filters hooks.filter
      (params.lookup (.str name))
    rw [← h.filters] at hx
    exact ⟨x, hx, (hcheckable hf _ hx).2 fun hover => hnone ⟨f, x, hf, hx, hover⟩⟩

/-- A run returns if every turn passes after those before it. -/
theorem Ready.returns_iff (h : Ready hooks v targets plan run₀) :
    (∃ b, (v.validate hooks targets).answer = .ok b) ↔
      ∀ before name after, plan.selected = before ++ name :: after →
        Passes hooks v.resetFields plan run₀.params before name := by
  rw [← checkFields_settles_iff h.plain h.nodup h.keeps h.distinct]
  constructor
  · rintro ⟨b, hb⟩
    obtain ⟨plan', run', run, hplan, hturns, -⟩ := validate_ok hb
    obtain ⟨rfl, rfl⟩ := h.planned.unique hplan
    exact ⟨(), run, hturns⟩
  · rintro ⟨u, run, hturns⟩
    exact ⟨_, answer_of_turns h.planned hturns⟩

/-- A well declared validator can plan a run for whatever is requested. The run returns unless the
turn of a selected name meets an integer that is too large. -/
theorem validate_returns_iff (hv : Reachable hooks v) (hdeclared : v.WellDeclared)
    (hsupplied : v.WellSupplied) {queue : List String} (hqueue : v.queue = queue.map .str)
    (q : Request) :
    ∃ plan run₀, Returns (v.resetFields.plan q.targets) v.start plan run₀ ∧
      ((∃ b, (v.validate hooks q.targets).answer = .ok b) ↔
        ∀ name ∈ plan.selected, ¬v.Overflows hooks plan run₀.params name) := by
  have hconsistent := hv.consistent
  have hnames : Value.AllTexts v.resetFields.fields.keys := by
    show Value.AllTexts (v.fields.mapValues Field.reset).keys
    rw [Entries.keys_mapValues]
    exact hdeclared.names
  have hcallback : ∀ e ∈ v.fields, e.2.validation.isCallback = false := by
    intro e he
    rw [(hdeclared.fields e he).validation]
    rfl
  have hstart : Value.AllTexts v.start.params.keys := hsupplied.keys
  obtain ⟨plan, run₀, hplan⟩ :=
    plan_returns (v := v.resetFields) hconsistent.resetFields.fits hnames hqueue q hstart
  obtain ⟨plan', run₀', hready, -⟩ :=
    exists_ready hconsistent hdeclared.directives hcallback hooks (selected?_eq hplan)
  have hwritable : ∀ e ∈ run₀'.params, e.2.writable = true :=
    forall_plan (P := fun v : Value => v.writable = true) hsupplied.writable hready.planned
  refine ⟨plan', run₀', hready.planned, hready.returns_iff.trans ?_⟩
  have hpasses := hdeclared.passes_iff hconsistent.named hooks plan' hwritable
  constructor
  · intro h name hname
    obtain ⟨before, after, hsplit⟩ := List.append_of_mem hname
    exact (hpasses before name).1 (h before name after hsplit)
  · intro h before name after hsplit
    exact (hpasses before name).2 (h name (hsplit ▸ List.mem_append_right before List.mem_cons_self))

/-- A tolerant validator for a number that has a limit. -/
def score (n : Int) : Validator where
  options := { policy := .ignoring }
  directives := .builtin
  filters := .builtin
  children := []
  mixins := []
  aliases := {}
  warnings := []
  fields := [(.str "score", {
    name := .str "score", directives := [(.str "max_sum", .int 5), (.str "filters", .list [])] })]
  params := [(.str "score", .int n)]

/-- The validator is created from the directives of its field. -/
theorem reachable_score (n : Int) : Reachable .none (score n) :=
  @Reachable.create .none (score n).options (.dict (score n).params)
    { fields := .dict ((score n).fields.mapValues fun f => .dict f.directives) } (score n)
    (List.pairwise_singleton _ _) (List.pairwise_singleton _ _) rfl

/-- The number is limited by a number. -/
theorem wellDeclared_score (n : Int) : (score n).WellDeclared where
  directives := rfl
  filters := rfl
  names := Value.allTexts_map ["score"]
  fields := by
    intro e he
    obtain rfl := List.mem_singleton.1 he
    refine ⟨nofun, rfl, ?_, by decide +kernel⟩
    intro e he c hc
    rcases List.mem_pair.1 he with rfl | rfl
    · have hmax : DirectiveTable.builtin.check? (.str "max_sum") =
        some (.builtin (.sum .greatest)) := rfl
      obtain rfl := Check.builtin.inj (Option.some.inj (hmax.symm.trans hc))
      exact .inl ⟨5, rfl⟩
    · have hfilters : DirectiveTable.builtin.check? (.str "filters") = none := rfl
      cases hfilters.symm.trans hc
  ignores := rfl

/-- A number can be written out if it does not have too many digits. -/
theorem wellSupplied_score {n : Int} (h : n.natAbs < 10 ^ Number.maxDigits) :
    (score n).WellSupplied where
  keys := Value.allTexts_map ["score"]
  writable := by
    intro e he
    obtain rfl := List.mem_singleton.1 he
    exact Value.writable_of_lt h

/-- A run for a number above the limit returns, and so no turn of it meets an integer that is too
large. -/
theorem validate_returns_score :
    ∃ (plan : Plan) (run₀ : Run), plan.selected = ["score"] ∧
      ((score 7).validate .none []).answer = .ok false ∧
      ∀ name ∈ plan.selected, ¬(score 7).Overflows .none plan run₀.params name := by
  have hanswer : ((score 7).validate .none []).answer = .ok false :=
    ok_of_toOption (by decide +kernel)
  have hselected : (score 7).selected? [] = some ["score"] := by decide +kernel
  have hsupplied : (score 7).WellSupplied := wellSupplied_score (by decide +kernel)
  have hqueue : (score 7).queue = ([] : List String).map .str := rfl
  obtain ⟨plan, run₀, hplan, hreturns⟩ := validate_returns_iff (reachable_score 7)
    (wellDeclared_score 7) hsupplied hqueue (.names [])
  have hsame := (selected?_eq hplan).symm.trans hselected
  exact ⟨plan, run₀, Option.some.inj hsame, hanswer, hreturns.1 ⟨false, hanswer⟩⟩

/-- A well declared validator returns from every run. -/
def AlwaysReturns : Prop :=
  ∀ {hooks : Hooks} {v : Validator} {queue : List String}, Reachable hooks v → v.WellDeclared →
    v.WellSupplied → v.queue = queue.map .str → ∀ q : Request,
      ∃ b, (v.validate hooks q.targets).answer = .ok b

/-- A limit on numbers cannot be checked on the integer of 401 digits. -/
theorem not_alwaysReturns : ¬AlwaysReturns := by
  intro h
  have hsupplied : (score (10 ^ 400)).WellSupplied := wellSupplied_score (by decide +kernel)
  have hqueue : (score (10 ^ 400)).queue = ([] : List String).map .str := rfl
  obtain ⟨b, hb⟩ := h (reachable_score (10 ^ 400)) (wellDeclared_score _) hsupplied hqueue
    (.names [])
  have hnone : ((score (10 ^ 400)).validate .none []).answer.toOption = none := by decide +kernel
  change ((score (10 ^ 400)).validate .none []).answer = .ok b at hb
  rw [hb] at hnone
  cases hnone

end Validator

end ParamCheck
