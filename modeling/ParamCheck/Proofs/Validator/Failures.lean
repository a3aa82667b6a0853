import ParamCheck.Proofs.Validator.Balance
import ParamCheck.Proofs.Validator.Passing

/-!
# Checks that fail say so

A run does not look at the answers of checks. `BuiltinCheck.outspoken` says that it need not do so: a
built-in check that returns answers false if and only if it has recorded a message, and that message, or the
one that overrides it, is then with the field and in the report (`Script.Tells`). There it stays whatever the
checks after it do, built in or not, and even if one of them fails (`Run.Shows`).
-/

namespace ParamCheck

/-- Record messages against a field and in the report, one after the other. -/
def Report.recordAll : List Value → Field → List Value → Except Fault (Field × List Value)
  | [], f, messages => .ok (f, messages)
  | message :: rest, f, messages => do
    let (f, messages) ← record f messages message
    recordAll rest f messages

/-- What the answer of a script has to do with the field and the report, before and after it. -/
structure Script.Tells (s : Script) (f : Field) (report : List Value) (answer : Value) (g : Field)
    (report' : List Value) : Prop where
  /-- The script records messages against its own field and does nothing else. -/
  calls : s.effects = s.messages.map .record
  /-- This is what makes the field and the report what they are afterwards. -/
  recorded : Report.recordAll s.messages f report = .ok (g, report')
  /-- The answer is false if there is a message, and otherwise true. -/
  answer : answer = .bool s.messages.isEmpty
  /-- Each message, or the one that overrides it, is with the field and in the report. -/
  told : ∀ m ∈ s.messages, g.errors.any (Report.effective f m).same = true ∧
    report'.any (Report.effective f m).same = true
  /-- Without messages the field and the report are as they were. -/
  kept : s.messages = [] → g = f ∧ report' = report

namespace BuiltinCheck

/-- A check that has at most one message answers whether it has none. -/
theorem OneMessage.answer {x : Except Fault Script} (h : OneMessage x) {answer : Value}
    (hanswer : (Script.ofExcept x).answer = .ok answer) :
    answer = .bool (Script.ofExcept x).messages.isEmpty := by
  cases x with
  | error e => cases hanswer
  | ok s =>
    rcases h s rfl with rfl | ⟨message, -, rfl⟩
    · exact (Except.ok.inj hanswer).symm
    · exact (Except.ok.inj hanswer).symm

/-- The check of dependencies answers whether it has no messages. -/
theorem checkDependsOn_answer {names : List Value} {f : Field} {scene : Scene} {answer : Value}
    (h : (checkDependsOn names f scene).answer = .ok answer) :
    answer = .bool (checkDependsOn names f scene).messages.isEmpty := by
  induction names generalizing answer with
  | nil => exact (Except.ok.inj h).symm
  | cons name rest ih =>
    rw [checkDependsOn] at h ⊢
    cases hparam : param scene name with
    | error e =>
      rw [hparam] at h
      cases h
    | ok v =>
      rw [hparam] at h
      dsimp only at h ⊢
      by_cases hblank : v.isBlank = true
      · -- A dependency that is missing turns the answer of the others into false.
        rw [if_pos hblank] at h ⊢
        cases hmessage : requirement f scene name with
        | error e =>
          rw [hmessage] at h
          cases h
        | ok message =>
          rw [hmessage] at h
          obtain ⟨later, -, rfl⟩ := map_eq_ok_iff.1 h
          rfl
      · rw [if_neg hblank] at h ⊢
        exact ih h

/-- A built-in check answers whether it has no messages. -/
theorem answer_eq (c : BuiltinCheck) {search : PatternSearch} {argument v : Value} {f : Field} {scene : Scene}
    {answer : Value} (h : (c.script search argument v f scene).answer = .ok answer) :
    answer = .bool (c.script search argument v f scene).messages.isEmpty := by
  by_cases hc : c = .dependsOn
  · subst hc
    exact checkDependsOn_answer h
  · obtain ⟨x, hx, hscript⟩ := c.oneMessage search hc argument v f scene
    rw [hscript] at h ⊢
    exact hx.answer h

end BuiltinCheck

namespace Report

/-- Texts that are not empty can all be recorded. -/
theorem recordAll_texts {new : List Value} (h : ∀ m ∈ new, ∃ s, m = .str s ∧ s ≠ "") :
    ∀ (f : Field) (messages : List Value), recordAll new f messages =
      .ok (f.recorded new, addAll messages (new.map (effective f))) := by
  induction new with
  | nil => exact fun _ _ => rfl
  | cons m rest ih =>
    intro f messages
    obtain ⟨hm, hrest⟩ := List.forall_mem_cons.1 h
    have hfirst : record f messages m =
        .ok (f.recorded [m], add messages (effective f m)) := record_ok_iff.2 ⟨hm, rfl⟩
    rw [recordAll, hfirst]
    show recordAll rest (f.recorded [m]) _ = _
    rw [ih hrest, Field.recorded_recorded]
    rfl

end Report

/-- A built-in check that returns tells of its failures. -/
theorem BuiltinCheck.tells (c : BuiltinCheck) {search : PatternSearch} {argument v : Value} {f : Field}
    {scene : Scene} {answer : Value} (h : (c.script search argument v f scene).answer = .ok answer)
    (report : List Value) :
    (c.script search argument v f scene).Tells f report answer
      (f.recorded (c.script search argument v f scene).messages)
      (Report.addAll report ((c.script search argument v f scene).messages.map (Report.effective f))) where
  calls := c.records search argument v f scene
  recorded := Report.recordAll_texts (c.texts search argument v f scene) f report
  answer := c.answer_eq h
  told m hm :=
    have hmem := List.mem_map_of_mem hm
    ⟨Report.any_addAll hmem f.errors, Report.any_addAll hmem report⟩
  kept hnone := by
    rw [hnone]
    exact ⟨rfl, rfl⟩

namespace Validator

/-- Outside a run, texts that are recorded one after the other change the field and the report. -/
theorem perform_eq {name : Value} {messages : List Value}
    (h : ∀ m ∈ messages, ∃ s, m = .str s ∧ s ≠ "") :
    ∀ {v : Validator} {f : Field}, v.fields.lookup name = some f →
      perform name (messages.map .record) v = (.ok (), { v with
        fields := v.fields.insert name (f.recorded messages)
        messages := Report.addAll v.messages (messages.map (Report.effective f)) }) := by
  induction messages with
  | nil =>
    intro v f hf
    show (_, v) = (_, ({ v with fields := v.fields.insert name f } : Validator))
    rw [Entries.insert_of_lookup hf]
  | cons m rest ih =>
    intro v f hf
    obtain ⟨hm, hrest⟩ := List.forall_mem_cons.1 h
    have hrecord : v.recordError name m = (.ok (), { v with
        fields := v.fields.insert name (f.recorded [m])
        messages := Report.add v.messages (Report.effective f m) }) := by
      have hfirst : Report.record f v.messages m =
          .ok (f.recorded [m], Report.add v.messages (Report.effective f m)) :=
        Report.record_ok_iff.2 ⟨hm, rfl⟩
      rw [recordError, hf]
      dsimp only
      rw [hfirst]
    have hset : Entries.lookup (v.fields.insert name (f.recorded [m])) name = some (f.recorded [m]) := by
      rw [Entries.lookup_insert, if_pos rfl]
    rw [List.map_cons, perform, hrecord]
    dsimp only
    rw [ih hrest hset, Field.recorded_recorded, Entries.insert_insert]
    rfl

end Validator

namespace Run

/-- A message is with a field and in the report. -/
def Shows (name m : Value) (run : Run) : Prop :=
  ∃ f, run.fields.lookup name = some f ∧ f.errors.any m.same = true ∧ run.messages.any m.same = true

/-- A message that is with a field and in the report stays there. -/
theorem outlasting_shows (name m : Value) : Outlasting (Shows name m) where
  recorded {run other g} h hg message := by
    obtain ⟨f, hf, herrors, hmessages⟩ := h
    have hreported := Balanced.any_add_of_any hmessages message
    by_cases hname : other.key? = name.key?
    · -- The new message is about the same field.
      have hsame : some g = some f := hg.symm.trans ((Entries.lookup_congr hname _).trans hf)
      obtain rfl := Option.some.inj hsame
      refine ⟨{ g with errors := Report.add g.errors message }, ?_, ?_, hreported⟩
      · show Entries.lookup (Entries.insert _ _ _) _ = _
        rw [Entries.lookup_insert, if_pos hname]
      · exact Balanced.any_add_of_any herrors message
    · refine ⟨f, ?_, herrors, hreported⟩
      show Entries.lookup (Entries.insert _ _ _) _ = _
      rw [Entries.lookup_insert, if_neg hname]
      exact hf
  params h _ := h

variable {hooks : Hooks} {v : Validator} {name value : Value}

/-- The checks of directives begin with that of the first one. -/
theorem run_checkDirectives_cons {run run' : Run} {key argument answer : Value} {check : Check} {f : Field}
    (hcheck : v.directives.check? key = some check) (hf : (run.fields.lookup name).getD default = f)
    (hplay : Returns (play name (check.script hooks argument value f run.view)) run answer run')
    (ds : List (Value × Value)) :
    (checkDirectives hooks v name value ((key, argument) :: ds)).run run =
      (checkDirectives hooks v name value ds).run run' := by
  subst hf
  rw [checkDirectives, hcheck]
  dsimp only
  -- What the check is played with is read from the run first.
  rw [Returns.run_bind (Returns.get_iff.2 ⟨rfl, rfl⟩), Returns.run_bind hplay]

/-- After the checks of some directives come those of the others. -/
theorem run_checkDirectives_append {before : List (Value × Value)} (ds : List (Value × Value)) :
    ∀ {run run' : Run}, Returns (checkDirectives hooks v name value before) run () run' →
      (checkDirectives hooks v name value (before ++ ds)).run run =
        (checkDirectives hooks v name value ds).run run' := by
  induction before with
  | nil =>
    intro run run' h
    obtain ⟨-, rfl⟩ := Returns.pure_iff.1 h
    rfl
  | cons d rest ih =>
    intro run run' h
    obtain ⟨key, argument⟩ := d
    rw [checkDirectives] at h
    rw [List.cons_append]
    cases hcheck : v.directives.check? key with
    | none =>
      rw [hcheck] at h
      rw [checkDirectives, hcheck]
      exact ih h
    | some check =>
      rw [hcheck] at h
      obtain ⟨_, w, hplay, hrest⟩ := Returns.bind_iff.1 (Returns.get_bind_iff.1 h)
      rw [run_checkDirectives_cons hcheck rfl hplay, ih hrest]

end Run

namespace BuiltinCheck

/-- What a check that returns has to do with the field that it is about and the report, so that its answer
can be ignored. -/
structure Outspoken (c : BuiltinCheck) (hooks : Hooks) (argument value : Value) : Prop where
  /-- Whatever the field and the report are, its answer goes with what it makes of them. -/
  tells : ∀ {f : Field} {scene : Scene} {answer : Value},
    (c.script hooks.search argument value f scene).answer = .ok answer → ∀ report, ∃ g report',
      (c.script hooks.search argument value f scene).Tells f report answer g report'
  /-- Called for a field of a validator, it changes nothing but that field and the report, and nothing at all
  if it answers true. -/
  called : ∀ {v v' : Validator} {f : Field} {answer : Value}, v.fields.lookup f.name = some f →
    v.callCheck hooks (.builtin c) argument value f = (.ok answer, v') → ∃ g report',
      (c.script hooks.search argument value f v.view.toScene).Tells f v.messages answer g report' ∧
        v' = { v with fields := v.fields.insert f.name g, messages := report' } ∧
          (answer = .bool true → v' = v)
  /-- The same holds when it is the turn of its directive in a run, and its messages are still there after
  the checks of all directives, whatever these do. -/
  ignored : ∀ {v : Validator} {run run₁ run₂ : Run} {name key : Value} {before : List (Value × Value)}
      {f : Field} {answer : Value}, v.directives.check? key = some (.builtin c) →
    Returns (Run.checkDirectives hooks v name value before) run () run₁ →
    run₁.fields.lookup name = some f →
    Returns (Run.play name (c.script hooks.search argument value f run₁.scene)) run₁ answer run₂ → ∃ g report',
      (c.script hooks.search argument value f run₁.scene).Tells f run₁.messages answer g report' ∧
        run₂ = { run₁ with fields := run₁.fields.insert name g, messages := report' } ∧
          (answer = .bool true → run₂ = run₁) ∧
            ∀ m ∈ (c.script hooks.search argument value f run₁.scene).messages, ∀ after,
              Leaves (Run.checkDirectives hooks v name value (before ++ (key, argument) :: after)) run
                (Run.Shows name (Report.effective f m))

variable (c : BuiltinCheck) {hooks : Hooks} {argument value : Value}

/-- A check that answers true has no messages. -/
theorem messages_of_true {f : Field} {scene : Scene}
    (h : (c.script hooks.search argument value f scene).answer = .ok (.bool true)) :
    (c.script hooks.search argument value f scene).messages = [] := by
  have hanswer := c.answer_eq h
  simpa using hanswer

/-- A check that is called outside a run. -/
theorem callCheck_eq {v v' : Validator} {f : Field} {answer : Value} (hf : v.fields.lookup f.name = some f)
    (h : v.callCheck hooks (.builtin c) argument value f = (.ok answer, v')) :
    (c.script hooks.search argument value f v.view.toScene).answer = .ok answer ∧ v' = { v with
      fields := v.fields.insert f.name
        (f.recorded (c.script hooks.search argument value f v.view.toScene).messages)
      messages := Report.addAll v.messages
        ((c.script hooks.search argument value f v.view.toScene).messages.map (Report.effective f)) } := by
  have hperform := Validator.perform_eq (c.texts hooks.search argument value f v.view.toScene) hf
  rw [← c.records hooks.search argument value f v.view.toScene] at hperform
  unfold Validator.callCheck at h
  dsimp only [Check.script] at h
  rw [hperform] at h
  obtain ⟨hanswer, rfl⟩ := Prod.mk.inj h
  exact ⟨hanswer, rfl⟩

/-- A check that is played in a run. -/
theorem play_eq {run run' : Run} {name : Value} {f : Field} {scene : Scene} {answer : Value}
    (hf : run.fields.lookup name = some f)
    (h : Returns (Run.play name (c.script hooks.search argument value f scene)) run answer run') :
    (c.script hooks.search argument value f scene).answer = .ok answer ∧
      run' = run.withMessages name f (c.script hooks.search argument value f scene).messages := by
  rw [Run.play, c.records] at h
  obtain ⟨_, w, hperform, hanswer⟩ := Returns.bind_iff.1 h
  obtain ⟨hok, rfl⟩ := Returns.liftM_iff.1 hanswer
  exact ⟨hok, Run.perform_eq _ hf hperform⟩

/-- A built-in check that answers false has recorded a message, and no failure is lost by ignoring the
answer. -/
theorem outspoken (c : BuiltinCheck) (hooks : Hooks) (argument value : Value) :
    c.Outspoken hooks argument value where
  tells h report := ⟨_, _, c.tells h report⟩
  called {v v' f answer} hf h := by
    obtain ⟨hanswer, rfl⟩ := c.callCheck_eq hf h
    refine ⟨_, _, c.tells hanswer v.messages, rfl, ?_⟩
    rintro rfl
    rw [c.messages_of_true hanswer]
    show ({ v with fields := v.fields.insert f.name f } : Validator) = v
    rw [Entries.insert_of_lookup hf]
  ignored {v run run₁ run₂ name key before f answer} hcheck hbefore hf hplay := by
    obtain ⟨hanswer, rfl⟩ := c.play_eq hf hplay
    have htells := c.tells hanswer run₁.messages
    refine ⟨_, _, htells, rfl, ?_, fun m hm after => ?_⟩
    · rintro rfl
      rw [c.messages_of_true hanswer, Run.withMessages_nil hf]
    · have hself : (run₁.fields.lookup name).getD default = f := by
        rw [hf]
        rfl
      -- The message is there when the check has been played, and outlasts the others.
      have hshows : Run.Shows name (Report.effective f m)
          (run₁.withMessages name f (c.script hooks.search argument value f run₁.scene).messages) :=
        ⟨_, Run.lookup_withMessages _ _ _ _, htells.told m hm⟩
      have hafter : Leaves (Run.checkDirectives hooks v name value after) _
          (Run.Shows name (Report.effective f m)) :=
        (Run.outlasting_shows name (Report.effective f m)).checkDirectives name value after hshows
      unfold Leaves at hafter ⊢
      rw [Run.run_checkDirectives_append _ hbefore, Run.run_checkDirectives_cons hcheck hself hplay]
      exact hafter

/-- A guest who is to leave a way to be reached. -/
def guest : Field where
  name := .str "guest"
  directives := [(.str "depends_on", .list [.str "email", .str "phone"]),
    (.str "error", .str "No way to reach you")]

/-- A validator for a guest who has left no way to be reached. -/
def reception : Validator where
  options := {}
  directives := .builtin
  filters := .builtin
  children := []
  mixins := []
  aliases := {}
  warnings := []
  fields := [(.str "guest", guest)]
  params := [(.str "guest", .str "Ada")]

/-- The run that begins with what the validator has. -/
def arrival : Run := { params := reception.params, fields := reception.fields }

/-- Two dependencies are missing, and the message that overrides both is there after a call and after the
checks of a run. -/
theorem outspoken_guest :
    ∃ v' g report', reception.callCheck .none (.builtin .dependsOn) (.list [.str "email", .str "phone"])
          (.str "Ada") guest = (.ok (.bool false), v') ∧
      (dependsOn.script Hooks.none.search (.list [.str "email", .str "phone"]) (.str "Ada") guest
        reception.view.toScene).Tells guest [] (.bool false) g report' ∧
      v' = { reception with fields := reception.fields.insert guest.name g, messages := report' } ∧
      Leaves (Run.checkDirectives .none reception guest.name (.str "Ada") guest.directives) arrival
        (Run.Shows guest.name (.str "No way to reach you")) := by
  have hguest := outspoken .dependsOn .none (.list [.str "email", .str "phone"]) (.str "Ada")
  have hf : reception.fields.lookup guest.name = some guest := rfl
  have hcall : reception.callCheck .none (.builtin .dependsOn) (.list [.str "email", .str "phone"])
      (.str "Ada") guest = (.ok (.bool false), { reception with
        fields := [(.str "guest", { guest with errors := [.str "No way to reach you"] })]
        messages := [.str "No way to reach you"] }) := rfl
  have hplay : Returns (Run.play guest.name (dependsOn.script Hooks.none.search
      (.list [.str "email", .str "phone"]) (.str "Ada") guest arrival.scene)) arrival (.bool false) { arrival with
        fields := [(.str "guest", { guest with errors := [.str "No way to reach you"] })]
        messages := [.str "No way to reach you"] } := rfl
  have hbefore : Returns (Run.checkDirectives .none reception guest.name (.str "Ada") []) arrival ()
      arrival := rfl
  have hcheck : reception.directives.check? (.str "depends_on") = some (.builtin .dependsOn) := rfl
  obtain ⟨g, report', htells, hafter, -⟩ := hguest.called hf hcall
  obtain ⟨-, -, -, -, -, hleaves⟩ := hguest.ignored hcheck hbefore hf hplay
  refine ⟨_, g, report', hcall, htells, hafter, ?_⟩
  exact hleaves (.str "guest requires email") List.mem_cons_self
    [(.str "error", .str "No way to reach you")]

end BuiltinCheck
end ParamCheck
