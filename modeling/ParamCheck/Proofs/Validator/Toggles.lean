import ParamCheck.Proofs.Validator.Congruence
import ParamCheck.Proofs.Validator.Plan

/-!
# Signs of targets

A target is a name after the sign of a toggle (`Toggle.parse_sign_append`). A plan gives each name the
last sign that it has among the targets and the queue (`Validator.lookup_togglesOf`), and the signs play
no other part in it: plans for the same names differ in their toggles only (`Validator.select_signs`).
-/

namespace ParamCheck

namespace Toggle

/-- A target that gives no sign is the name that it asks for. -/
theorem parse_of_declared {target : String} (h : (parse target).2 = .declared) :
    parse target = (target, .declared) := by
  unfold parse at h ⊢
  split
  · next heq =>
    rw [heq] at h
    cases h
  · next heq =>
    rw [heq] at h
    cases h
  · rfl

/-- A name after the sign of a toggle asks for the two. Without a sign the name must not begin with
one. -/
theorem parse_sign_append {name : String} {toggle : Toggle}
    (h : toggle = .declared → (parse name).2 = .declared) :
    parse (toggle.sign ++ name) = (name, toggle) := by
  cases toggle with
  | declared =>
    rw [show sign declared ++ name = name from String.empty_append]
    exact parse_of_declared (h rfl)
  | required =>
    have htarget : (sign required ++ name).toList = '+' :: name.toList := String.toList_append
    rw [parse, htarget]
    exact congrArg (·, required) String.ofList_toList
  | optional =>
    have htarget : (sign optional ++ name).toList = '-' :: name.toList := String.toList_append
    rw [parse, htarget]
    exact congrArg (·, optional) String.ofList_toList

/-- The name that a target asks for without a sign does not begin with one. -/
theorem parse_stripped {target : String} (h : (parse target).2 = .declared) :
    (parse (parse target).1).2 = .declared := by
  rw [parse_of_declared h]
  exact h

end Toggle

namespace Validator

/-! ## Names and signs -/

/-- The names and the signs of targets. -/
def signed (ts : List String) : List (Value × Toggle) :=
  ts.map fun t => (.str (Toggle.parse t).1, (Toggle.parse t).2)

/-- Names can be read as targets. -/
theorem mapM_ofValue_map (ts : List String) :
    (ts.map Value.str).mapM Toggle.ofValue = .ok (signed ts) := by
  induction ts with
  | nil => rfl
  | cons t rest ih =>
    rw [List.map_cons, List.mapM_cons, ih]
    rfl

/-- The sign that is kept for a name is the last one that it was given. -/
theorem lookup_togglesOf (parsed : List (Value × Toggle)) (k : Value) :
    (togglesOf parsed).lookup k =
      (parsed.reverse.find? fun p => p.1.key? = k.key? ∧ p.2 ≠ .declared).map (·.2) := by
  induction parsed with
  | nil => rfl
  | cons p rest ih =>
    obtain ⟨name, toggle⟩ := p
    rw [List.reverse_cons, List.find?_append, Option.map_or, ← ih, togglesOf]
    by_cases hkey : name.key? = k.key?
    · -- The name is the one that is looked for, and a later sign for it is kept.
      have hcontains : (togglesOf rest).contains name = ((togglesOf rest).lookup k).isSome := by
        rw [← Entries.lookup_congr hkey]
        rfl
      rw [hcontains]
      cases hlater : (togglesOf rest).lookup k with
      | some later => simp [hlater]
      | none => by_cases htoggle : toggle = .declared <;> simp [hlater, htoggle, hkey, Entries.lookup]
    · have hother : ∀ later : Entries Toggle,
          Entries.lookup ((name, toggle) :: later) k = later.lookup k :=
        fun later => if_neg hkey
      split <;> simp [hother, hkey]

/-! ## Plans and signs -/

variable (v : Validator) {run run' : Run} {plan : Plan}

/-- The end of a plan, given the parameters after renaming, the keys that supplied renamed ones, and the
names and signs of the targets and of the queue. -/
def select (params : Entries (Value × Value)) (sources : Entries Value)
    (parsed : List (Value × Toggle)) : RunM Plan := do
  let (params, moved) := v.aliases.move params
  let names := parsed.map (·.1)
  modify fun run =>
    { run with
      params := params.mapValues (·.2)
      notes := run.notes ++ moved.map fun (field, source) => .resolvedAlias source field }
  let selected ← namesOf <|
    if !names.isEmpty then Value.unique (names ++ moved.keys)
    else if !params.isEmpty then params.keys
    else v.fields.keys
  modify fun run => { run with notes := run.notes ++ [.validating selected] }
  return {
    selected
    toggles := togglesOf parsed
    sources := sources.overlay moved
    origins := params.mapValues (·.1)
    hasParams := !params.isEmpty }

/-- A plan reads the targets and the queue before it selects. -/
theorem plan_eq_select (targets : List Value) :
    v.plan targets = (do
      let (params, sources, requested) ← request targets (tagged (← get).params)
      let parsed ← (requested.map Value.str ++ v.queue).mapM fun target => Toggle.ofValue target
      v.select params sources parsed) := rfl

variable {v} in
/-- A plan that returns has read its targets and selects. -/
theorem returns_plan_iff {targets : List Value} :
    Returns (v.plan targets) run plan run' ↔
      ∃ params sources requested parsed,
        request targets (tagged run.params) = .ok (params, sources, requested) ∧
        (requested.map Value.str ++ v.queue).mapM Toggle.ofValue = .ok parsed ∧
        Returns (v.select params sources parsed) run plan run' := by
  rw [plan_eq_select]
  simp only [Returns.bind_iff, Returns.get_iff, Returns.liftM_iff, Returns.mapM_liftM_iff]
  constructor
  · rintro ⟨_, _, ⟨rfl, rfl⟩, ⟨params, sources, requested⟩, _, ⟨hrequest, rfl⟩, parsed, _,
      ⟨hparsed, rfl⟩, hselect⟩
    exact ⟨params, sources, requested, parsed, hrequest, hparsed, hselect⟩
  · rintro ⟨params, sources, requested, parsed, hrequest, hparsed, hselect⟩
    exact ⟨_, _, ⟨rfl, rfl⟩, _, _, ⟨hrequest, rfl⟩, parsed, _, ⟨hparsed, rfl⟩, hselect⟩

variable {v} in
/-- A plan keeps the signs of the targets and of the queue. -/
theorem select_toggles {params : Entries (Value × Value)} {sources : Entries Value}
    {parsed : List (Value × Toggle)} (h : Returns (v.select params sources parsed) run plan run') :
    plan.toggles = togglesOf parsed := by
  rw [select] at h
  simp only [Returns.bind_iff, Returns.modify_iff, Returns.liftM_iff, Returns.pure_iff] at h
  obtain ⟨_, _, _, _, _, _, _, _, _, rfl, _⟩ := h
  rfl

/-- The end of a plan goes by the signs for the toggles only. -/
theorem select_signs {parsed parsed' : List (Value × Toggle)}
    (hempty : (parsed.map (·.1)).isEmpty = (parsed'.map (·.1)).isEmpty)
    (hunique : ∀ keys, Value.unique (parsed.map (·.1) ++ keys) =
      Value.unique (parsed'.map (·.1) ++ keys))
    (params : Entries (Value × Value)) (sources : Entries Value) :
    v.select params sources parsed =
      (fun plan => { plan with toggles := togglesOf parsed }) <$> v.select params sources parsed' := by
  unfold select
  dsimp only
  rw [hempty, hunique]
  simp only [map_bind, map_pure]

end Validator

end ParamCheck
