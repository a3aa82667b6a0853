import ParamCheck.Proofs.Validator.Permutation
import ParamCheck.Proofs.Validator.Verdict
import ParamCheck.Proofs.Value.Sameness

/-!
# Repeated targets

The targets of a run and its queue can ask for a name many times, with different signs and without any.
`Validator.settled` lists each name once, where it is asked for first, after the last sign that it is
given. A run for targets with a queue is the run for the settled ones without a queue
(`Validator.validate_settled`).
-/

namespace ParamCheck

/-- Texts are repeated as values if they are repeated as texts. -/
theorem Value.unique_map_str (ts : List String) : unique (ts.map .str) = ts.eraseDups.map .str := by
  induction ts using List.reverseRecOn with
  | nil => rfl
  | append_singleton ts t ih =>
    have hany : (ts.eraseDups.map Value.str).any (Value.str t).same = true ↔ t ∈ ts := by
      simp [same, scalarKey?]
    rw [List.map_append, ← Report.addAll_nil, Report.addAll_append, Report.addAll_nil, ih,
      List.eraseDups_append, List.map_append]
    show Report.add _ (.str t) = _
    unfold Report.add
    by_cases ht : t ∈ ts
    · rw [if_pos (hany.2 ht)]
      simp [List.removeAll, ht]
    · rw [if_neg (mt hany.1 ht)]
      simp [List.removeAll, ht, List.eraseDups_cons]

namespace Validator

/-- The names that targets ask for, without their signs. -/
def stripped (ts : List String) : List String := ts.map fun t => (Toggle.parse t).1

/-- The last sign that targets give a name, if any. -/
def lastSign (ts : List String) (name : String) : Toggle :=
  ((ts.map Toggle.parse).reverse.find? fun p => p.1 = name ∧ p.2 ≠ .declared).elim .declared (·.2)

/-- The targets that ask for each name once, where it is asked for first, after the last sign that it is
given. -/
def settled (ts : List String) : List String :=
  (stripped ts).eraseDups.map fun name => (lastSign ts name).sign ++ name

/-- A name can begin with a sign, after another one. -/
example : settled ["--a", "a", "+b", "-a", "+-a", "b"] = ["+-a", "-a", "+b"] := by decide +kernel

/-! ## The last sign -/

/-- The last sign of a name is the one that is kept for it. -/
theorem lastSign_eq (ts : List String) (name : String) :
    ((togglesOf (signed ts)).lookup (.str name)).getD .declared = lastSign ts name := by
  have hkey : ∀ s : String, (Value.str s).key? = (Value.str name).key? ↔ s = name :=
    fun s => ⟨fun h => Value.str.inj (Value.eq_str_of_key? h), fun h => by rw [h]⟩
  have hsigned : signed ts = (ts.map Toggle.parse).map fun p => (.str p.1, p.2) := by
    rw [List.map_map]
    rfl
  rw [lookup_togglesOf, hsigned, ← List.map_reverse, List.find?_map, Option.map_map, lastSign]
  simp only [Function.comp_def, hkey]
  cases List.find? _ _ <;> rfl

/-- A name keeps its sign if it is asked for again without one. -/
theorem lastSign_of_last {before after : List String} {t : String}
    (hsign : (Toggle.parse t).2 ≠ .declared)
    (hafter : ∀ t' ∈ after, (Toggle.parse t').1 = (Toggle.parse t).1 → (Toggle.parse t').2 = .declared) :
    lastSign (before ++ t :: after) (Toggle.parse t).1 = (Toggle.parse t).2 := by
  have hnone : ((after.map Toggle.parse).reverse.find? fun p =>
      p.1 = (Toggle.parse t).1 ∧ p.2 ≠ .declared) = none := by
    rw [List.find?_eq_none]
    intro p hp
    obtain ⟨t', ht', rfl⟩ := List.mem_map.1 (List.mem_reverse.1 hp)
    simpa using hafter t' ht'
  rw [lastSign, List.map_append, List.map_cons, List.reverse_append, List.reverse_cons,
    List.append_assoc, List.find?_append, hnone, Option.none_or, List.singleton_append,
    List.find?_cons_of_pos (by simpa using hsign)]
  rfl

/-- A name that is given a sign has a last one. -/
theorem lastSign_ne_declared {ts : List String} {t : String} (ht : t ∈ ts)
    (hsign : (Toggle.parse t).2 ≠ .declared) : lastSign ts (Toggle.parse t).1 ≠ .declared := by
  rw [lastSign]
  cases hfind : (ts.map Toggle.parse).reverse.find? fun p =>
      p.1 = (Toggle.parse t).1 ∧ p.2 ≠ .declared with
  | none =>
    have hnone := List.find?_eq_none.1 hfind (Toggle.parse t)
      (List.mem_reverse.2 (List.mem_map_of_mem ht))
    simp [hsign] at hnone
  | some p =>
    have hp := List.find?_some hfind
    simp only [decide_eq_true_eq] at hp
    exact hp.2

/-- A name that is not asked for has no last sign. -/
theorem lastSign_of_not_mem {ts : List String} {name : String} (h : name ∉ stripped ts) :
    lastSign ts name = .declared := by
  have hnone : ((ts.map Toggle.parse).reverse.find? fun p => p.1 = name ∧ p.2 ≠ .declared) = none := by
    rw [List.find?_eq_none]
    intro p hp
    obtain ⟨t, ht, rfl⟩ := List.mem_map.1 (List.mem_reverse.1 hp)
    have hne : (Toggle.parse t).1 ≠ name := fun heq => h (heq ▸ List.mem_map_of_mem ht)
    simp [hne]
  rw [lastSign, hnone]
  rfl

/-! ## Settled targets -/

/-- Settled targets ask for each name with the last sign that it is given. -/
theorem map_parse_settled (ts : List String) :
    (settled ts).map Toggle.parse = (stripped ts).eraseDups.map fun name => (name, lastSign ts name) := by
  rw [settled, List.map_map]
  refine List.map_congr_left fun name hname => Toggle.parse_sign_append fun hdeclared => ?_
  -- A name that begins with a sign is asked for after another sign only.
  obtain ⟨t, ht, rfl⟩ := List.mem_map.1 (List.mem_eraseDups.1 hname)
  exact Toggle.parse_stripped (by_contra fun hsign => lastSign_ne_declared ht hsign hdeclared)

/-- Settled targets ask for each name once. -/
theorem stripped_settled (ts : List String) : stripped (settled ts) = (stripped ts).eraseDups := by
  have hstripped : stripped (settled ts) = ((settled ts).map Toggle.parse).map (·.1) := by
    rw [List.map_map]
    rfl
  rw [hstripped, map_parse_settled, List.map_map]
  exact List.map_id _

/-- Settling targets leaves the last signs. -/
theorem lastSign_settled (ts : List String) (name : String) :
    lastSign (settled ts) name = lastSign ts name := by
  rw [lastSign, map_parse_settled]
  cases hfind : ((stripped ts).eraseDups.map fun name => (name, lastSign ts name)).reverse.find?
      fun p => p.1 = name ∧ p.2 ≠ .declared with
  | some p =>
    obtain ⟨n, -, rfl⟩ := List.mem_map.1 (List.mem_reverse.1 (List.mem_of_find?_eq_some hfind))
    have hn := List.find?_some hfind
    simp only [decide_eq_true_eq] at hn
    exact congrArg (lastSign ts) hn.1
  | none =>
    by_cases hname : name ∈ stripped ts
    · have hmem : (name, lastSign ts name) ∈
          ((stripped ts).eraseDups.map fun name => (name, lastSign ts name)).reverse :=
        List.mem_reverse.2 (List.mem_map_of_mem (List.mem_eraseDups.2 hname))
      have hdeclared : lastSign ts name = .declared := by
        simpa using List.find?_eq_none.1 hfind _ hmem
      exact hdeclared.symm
    · exact (lastSign_of_not_mem hname).symm

/-- The names of targets are those that they ask for. -/
theorem signed_names (ts : List String) : (signed ts).map (·.1) = (stripped ts).map .str := by
  rw [signed, stripped, List.map_map, List.map_map]
  rfl

/-- Settling targets changes nothing about the names that are selected. -/
theorem unique_settled (ts : List String) (keys : List Value) :
    Value.unique ((signed ts).map (·.1) ++ keys) =
      Value.unique ((signed (settled ts)).map (·.1) ++ keys) := by
  rw [signed_names, signed_names, stripped_settled, ← Value.unique_map_str,
    Value.unique_unique_append]

/-- Settling targets leaves a target if there is one. -/
theorem isEmpty_settled (ts : List String) :
    ((signed ts).map (·.1)).isEmpty = ((signed (settled ts)).map (·.1)).isEmpty := by
  rw [signed_names, signed_names, stripped_settled]
  cases ts with
  | nil => rfl
  | cons t rest =>
    rw [stripped, List.map_cons, List.eraseDups_cons]
    rfl

/-! ## Runs for repeated targets -/

/-- Names can be read as targets in a run. -/
theorem mapM_liftM_ofValue (ts : List String) :
    ((ts.map Value.str).mapM fun t => (liftM (Toggle.ofValue t) : RunM _)) = pure (signed ts) := by
  induction ts with
  | nil => rfl
  | cons t rest ih =>
    rw [List.map_cons, List.mapM_cons, ih]
    rfl

/-- A plan for names reads them before those in the queue. -/
theorem plan_texts {v : Validator} {queue : List String} (hqueue : v.queue = queue.map .str)
    (ts : List String) :
    v.plan (ts.map .str) = get >>= fun run => v.select (tagged run.params) [] (signed (ts ++ queue)) := by
  rw [plan_eq_select]
  simp only [request_map, hqueue]
  refine congrArg (get >>= ·) (funext fun run => ?_)
  show ((ts.map Value.str ++ queue.map Value.str).mapM fun t => (liftM (Toggle.ofValue t) : RunM _)) >>=
    (fun parsed => v.select (tagged run.params) [] parsed) = _
  rw [← List.map_append, mapM_liftM_ofValue, pure_bind]

/-- A plan for names keeps the signs of these and of the queue. -/
theorem toggles_of_texts {v : Validator} {queue : List String} (hqueue : v.queue = queue.map .str)
    {ts : List String} {run run' : Run} {plan : Plan}
    (h : Returns (v.plan (ts.map .str)) run plan run') :
    plan.toggles = togglesOf (signed (ts ++ queue)) := by
  rw [plan_texts hqueue, Returns.get_bind_iff] at h
  exact select_toggles h

/-- A run for targets and a queue is the run for the settled ones. -/
theorem runTargets_settled (hooks : Hooks) {v : Validator} {queue : List String}
    (hqueue : v.queue = queue.map .str) (ts : List String) :
    runTargets hooks v (ts.map .str) =
      runTargets hooks { v with queue := [] } ((settled (ts ++ queue)).map .str) := by
  have hnone : ({ v with queue := [] } : Validator).queue = ([] : List String).map .str := rfl
  rw [runTargets, runTargets, plan_texts hqueue, plan_texts hnone, List.append_nil, bind_assoc,
    bind_assoc]
  refine congrArg (get >>= ·) (funext fun run => ?_)
  generalize hbase : v.select (tagged run.params) [] (signed (settled (ts ++ queue))) = base
  have hasked : v.select (tagged run.params) [] (signed (ts ++ queue)) =
      (fun plan => { plan with toggles := togglesOf (signed (ts ++ queue)) }) <$> base := by
    rw [← hbase]
    exact v.select_signs (isEmpty_settled _) (unique_settled _) _ _
  have hsettled : base =
      (fun plan => { plan with toggles := togglesOf (signed (settled (ts ++ queue))) }) <$> base := by
    rw [← hbase]
    exact v.select_signs rfl (fun _ => rfl) _ _
  show v.select _ _ _ >>= _ = v.select _ _ _ >>= _
  rw [hasked, hbase]
  conv_rhs => rw [hsettled]
  rw [bind_map_left, bind_map_left]
  -- The two plans differ in how they keep the last signs.
  refine congrArg (base >>= ·) (funext fun plan => ?_)
  have hrules : v.SameRules { v with queue := [] } := ⟨rfl, rfl, rfl⟩
  have hagrees : Plan.Agrees { plan with toggles := togglesOf (signed (ts ++ queue)) }
      { plan with toggles := togglesOf (signed (settled (ts ++ queue))) } := by
    refine ⟨fun name => ?_, rfl, rfl, rfl⟩
    rw [lastSign_eq, lastSign_eq, lastSign_settled]
  exact Run.checkFields_congr hooks hrules hagrees _

/-- A run for targets, with a queue, is the run for the settled ones without it: it gives the same answer or
raises the same fault, leaves the same validator but for the queue, and tells the same. No field is
checked twice, and the plan gives each name the last sign that it has, whatever targets without a sign
ask for it later. -/
theorem validate_settled {hooks : Hooks} {v : Validator} {queue : List String}
    (hv : Reachable hooks v) (hqueue : v.queue = queue.map .str) (ts : List String) :
    let asked := v.validate hooks (ts.map .str)
    let once := { v with queue := [] }.validate hooks ((settled (ts ++ queue)).map .str)
    asked.answer = once.answer ∧ { asked.validator with queue := [] } = once.validator ∧
      asked.notes = once.notes ∧
      ∀ plan run₀,
        Returns (v.resetFields.plan (ts.map .str))
            { params := v.params, fields := v.resetFields.fields } plan run₀ →
          plan.selected.Nodup ∧
          (∀ name, (plan.toggles.lookup (.str name)).getD .declared = lastSign (ts ++ queue) name) ∧
          ∀ before t after, ts ++ queue = before ++ t :: after → (Toggle.parse t).2 ≠ .declared →
            (∀ t' ∈ after, (Toggle.parse t').1 = (Toggle.parse t).1 →
              (Toggle.parse t').2 = .declared) →
            (plan.toggles.lookup (.str (Toggle.parse t).1)).getD .declared = (Toggle.parse t).2 := by
  have hreset : v.resetFields.queue = queue.map .str := hqueue
  have hrun := runTargets_settled hooks hreset ts
  intro asked once
  have houtcome : asked.answer = once.answer ∧
      { asked.validator with queue := [] } = once.validator ∧ asked.notes = once.notes := by
    show (v.validate hooks _).answer = _ ∧ ({ (v.validate hooks _).validator with queue := [] } : Validator) =
      _ ∧ (v.validate hooks _).notes = _
    unfold validate
    dsimp only
    rw [hrun]
    exact ⟨rfl, rfl, rfl⟩
  refine ⟨houtcome.1, houtcome.2.1, houtcome.2.2, fun plan run₀ hplan => ?_⟩
  have hsign (name : String) :
      (plan.toggles.lookup (.str name)).getD .declared = lastSign (ts ++ queue) name := by
    rw [toggles_of_texts hreset hplan, lastSign_eq]
  refine ⟨hv.consistent.nodup_selected hplan, hsign, fun before t after hsplit ht hafter => ?_⟩
  rw [hsign, hsplit, lastSign_of_last ht hafter]

/-- The validator with names in the queue. -/
def queued : Validator := signup.enqueue [.str "again", .str "nick"]

/-- Of the two signs of a name the last one is kept, and a repetition without a sign cancels none. The run
for the settled targets without the queue gives the answer of the run for the targets with the queue. -/
theorem validate_settled_queued :
    settled (["+nick", "-login", "nick", "+login"] ++ ["again", "nick"]) = ["+nick", "+login", "again"] ∧
      ({ queued with queue := [] }.validate .none (["+nick", "+login", "again"].map .str)).answer =
        .ok false := by
  have hsettled : settled (["+nick", "-login", "nick", "+login"] ++ ["again", "nick"]) =
      ["+nick", "+login", "again"] := by decide +kernel
  have hasked : (queued.validate .none (["+nick", "-login", "nick", "+login"].map .str)).answer =
      .ok false := ok_of_toOption (by decide +kernel)
  obtain ⟨hanswer, -⟩ := validate_settled (.enqueue _ reachable_signup : Reachable .none queued)
    (show queued.queue = ["again", "nick"].map .str from rfl) ["+nick", "-login", "nick", "+login"]
  rw [hsettled] at hanswer
  exact ⟨hsettled, hanswer.symm.trans hasked⟩

end Validator

end ParamCheck
