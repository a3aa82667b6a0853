import ParamCheck.Proofs.Validator.Balance
import ParamCheck.Proofs.Validator.Turns

/-!
# The answer of a run

The answer of a run that returns says whether its report is empty. What is reported of a selected
name that is no field stays in the report (`Validator.any_messages_of_stray`), and all other
messages are those of fields. So the answer can be told from the messages of the fields and from the
names that are selected (`Validator.answer_eq_true_iff`).
-/

namespace ParamCheck.Validator

variable {hooks : Hooks} {v : Validator} {plan : Plan} {run run' : Run}

/-- A message that is in the report stays in it. -/
theorem invariant_reported (v : Validator) (declared : Entries Field) (names : List String)
    (m : Value) : Run.Invariant v declared names fun run =>
      run.Keeps declared ∧ run.messages.any m.same = true where
  keeps h := h.1
  congr h hfields hmessages := by
    refine ⟨(Run.invariant_keeps v declared names).congr h.1 hfields hmessages, ?_⟩
    rw [hmessages]
    exact h.2
  recorded h hf m :=
    ⟨(Run.invariant_keeps v declared names).recorded h.1 hf m, Balanced.any_add_of_any h.2 _⟩
  updated h hf hreset herrors :=
    ⟨(Run.invariant_keeps v declared names).updated h.1 hf hreset herrors, h.2⟩
  passed h _ _ _ _ := ⟨h.1, Balanced.any_add_of_any h.2 _⟩

/-- If the policy asks for it, the turn of a name that is no field leaves the report of that. -/
theorem messages_checkName {name : String} {u : Unit}
    (h : Returns (Run.checkName hooks v plan name) run u run')
    (hf : run.fields.lookup (.str name) = none)
    (hignore : v.options.policy.ignoreUnknown = true)
    (hreport : v.options.policy.reportUnknown = true) :
    run'.messages.any (Value.str (Fault.unknownField (.str name)).message).same = true := by
  rw [Run.checkName, Returns.get_bind_iff] at h
  rw [hf] at h
  simp only [Run.unknown, Returns.bind_iff, Returns.get_iff, Returns.liftM_iff,
    Returns.set_iff] at h
  obtain ⟨_, _, ⟨rfl, rfl⟩, journal, _, ⟨htolerate, rfl⟩, rfl⟩ := h
  rw [Policy.tolerate_unknownField, if_pos hignore, if_pos hreport] at htolerate
  obtain rfl := Except.ok.inj htolerate
  exact Report.any_add _ _

/-- If a run that returns has a stray message to report, it reports it. -/
theorem any_messages_of_stray (hv : v.Named) {targets : List Value} {b : Bool}
    (h : (v.validate hooks targets).answer = .ok b) {m : Value}
    (hm : v.Stray ((v.selected? targets).getD []) m) :
    (v.validate hooks targets).validator.messages.any m.same = true := by
  obtain ⟨plan, run₀, run, hplan, hturns, -, -, hmessages⟩ := validate_ok h
  have hselected := selected?_eq hplan
  rw [hselected, Option.getD_some] at hm
  obtain ⟨hignore, hreport, name, hname, hf, rfl⟩ := hm
  obtain ⟨before, after, hsplit⟩ := List.append_of_mem hname
  rw [hsplit] at hturns
  obtain ⟨r, hbefore, hrest⟩ := checkFields_append (name :: after) hturns
  obtain ⟨_, w, hturn, hafter⟩ := Returns.bind_iff.1 hrest
  -- The name is no field when its turn comes, and the message stays.
  have hnames : ∀ e ∈ v.resetFields.fields, e.2.name = e.1 := hv
  have hkeeps : r.Keeps v.resetFields.fields := hbefore.leaves_iff.1
    (Run.checkFields_keeps hooks v.resetFields plan hnames before (plan_keeps hplan))
  have hdeclared : v.resetFields.fields.lookup (.str name) = none := by
    rw [← Option.map_eq_none_iff (f := Field.reset), ← lookup_declared] at hf
    exact hf
  have hw := messages_checkName hturn (hkeeps.lookup_eq_none hdeclared) hignore hreport
  have hwkeeps : w.Keeps v.resetFields.fields :=
    hturn.leaves_iff.1 (Run.checkName_keeps hooks v.resetFields plan hnames hkeeps name)
  have hP := invariant_reported v.resetFields v.resetFields.fields after
    (.str (Fault.unknownField (.str name)).message)
  have hrun := hafter.leaves_iff.1 (hP.checkFields hnames (fun _ hname => hname) ⟨hwkeeps, hw⟩)
  rw [hmessages]
  exact hrun.2

/-- The answer of a run is that there are no messages if no field has any and no stray message is to
be reported. -/
theorem answer_eq_true_iff (hv : v.Named) {targets : List Value} {b : Bool}
    (h : (v.validate hooks targets).answer = .ok b) :
    b = true ↔ (∀ e ∈ (v.validate hooks targets).validator.fieldErrors, e.2 = []) ∧
      ∀ m, ¬v.Stray ((v.selected? targets).getD []) m := by
  have hbalanced := balanced_validate hv hooks targets
  rw [answer_iff h, errorCount, List.length_eq_zero_iff]
  constructor
  · intro hnil
    have hstray : ∀ m, ¬v.Stray ((v.selected? targets).getD []) m := by
      intro m hm
      have hreported := any_messages_of_stray hv h hm
      rw [hnil] at hreported
      cases hreported
    exact ⟨(hbalanced.messages_eq_nil_iff hstray).1 hnil, hstray⟩
  · rintro ⟨hnone, hstray⟩
    exact (hbalanced.messages_eq_nil_iff hstray).2 hnone

/-- A run that leaves a message with a field answers that there are messages. -/
theorem answer_of_errors (hv : v.Named) {targets : List Value} {b : Bool}
    (h : (v.validate hooks targets).answer = .ok b) {k : Value} {g : Field}
    (hg : (v.validate hooks targets).validator.fields.lookup k = some g)
    (herrors : g.errors ≠ []) : b = false := by
  rw [Bool.eq_false_iff]
  intro hb
  obtain ⟨l, hl, -⟩ := Entries.exists_mem_of_lookup hg
  exact herrors (((answer_eq_true_iff hv h).1 hb).1 (l, g.errors) (List.mem_map.2 ⟨(l, g), hl, rfl⟩))

/-- Which messages are stray depends on which names are selected, not on their order. -/
theorem stray_perm {selected selected' : List String} (h : selected.Perm selected') (m : Value) :
    v.Stray selected m ↔ v.Stray selected' m := by
  unfold Stray
  simp only [h.mem_iff]

end ParamCheck.Validator
