import ParamCheck.Directive
import ParamCheck.Proofs.Entries
import ParamCheck.Proofs.Returns

/-!
# What built-in checks do

A built-in check records texts and nothing else (`BuiltinCheck.records`). What it records depends on
the field by its handle, and on the run by the parameters and the handles of the fields
(`BuiltinCheck.script_congr`).
-/

namespace ParamCheck

/-- The messages that a script records. -/
def Script.messages (s : Script) : List Value :=
  s.effects.filterMap fun
    | .record message => some message
    | _ => none

/-- A script does nothing but record messages. -/
def Script.Records (s : Script) : Prop := s.effects = s.messages.map .record

/-- The messages that a script records are texts that are not empty. -/
def Script.Texts (s : Script) : Prop := ∀ m ∈ s.messages, ∃ text, m = .str text ∧ text ≠ ""

/-- Two scenes have the same parameters, and fields with the same handles. -/
structure Scene.Alike (s s' : Scene) : Prop where
  params : s.params = s'.params
  handles : ∀ k, (s.fields.lookup k).map Field.handle = (s'.fields.lookup k).map Field.handle

/-- Being alike goes both ways. -/
theorem Scene.Alike.symm {s s' : Scene} (h : s.Alike s') : s'.Alike s :=
  ⟨h.params.symm, fun k => (h.handles k).symm⟩

namespace BuiltinCheck

/-- A check is met, or it fails with one message that is not empty. -/
def OneMessage (x : Except Fault Script) : Prop :=
  ∀ s, x = .ok s → s = .pass ∨ ∃ message, message ≠ "" ∧ s = .fail message

/-- A check that has at most one message records it. -/
theorem OneMessage.records {x : Except Fault Script} (h : OneMessage x) :
    (Script.ofExcept x).Records := by
  cases x with
  | error e => rfl
  | ok s =>
    rcases h s rfl with rfl | ⟨message, -, rfl⟩
    · rfl
    · rfl

/-- A check that has at most one message has texts that are not empty. -/
theorem OneMessage.texts {x : Except Fault Script} (h : OneMessage x) :
    (Script.ofExcept x).Texts := by
  cases x with
  | error e => exact nofun
  | ok s =>
    rcases h s rfl with rfl | ⟨message, hmessage, rfl⟩
    · exact nofun
    · intro m hm
      obtain rfl := List.mem_singleton.1 hm
      exact ⟨message, rfl, hmessage⟩

/-- A check that chooses between being met and failing has at most one message. -/
theorem OneMessage.ite {p : Prop} [Decidable p] {x y : Except Fault Script} (hx : OneMessage x)
    (hy : OneMessage y) : OneMessage (if p then x else y) := by
  split
  · exact hx
  · exact hy

/-- A check that first computes something has at most one message if what follows has. -/
theorem OneMessage.bind {α : Type} {x : Except Fault α} {f : α → Except Fault Script}
    (h : ∀ a, OneMessage (f a)) : OneMessage (x >>= f) := by
  intro s hs
  obtain ⟨a, -, ha⟩ := bind_eq_ok_iff.1 hs
  exact h a s ha

/-- A check that is met has no message. -/
theorem OneMessage.pass : OneMessage (.ok .pass) := fun _ h => .inl (Except.ok.inj h).symm

/-- A check that fails has one message. -/
theorem OneMessage.fail {message : String} (h : message ≠ "") : OneMessage (.ok (.fail message)) :=
  fun _ hs => .inr ⟨message, h, (Except.ok.inj hs).symm⟩

/-- A check that cannot be carried out has no message. -/
theorem OneMessage.error (e : Fault) : OneMessage (.error e) := fun _ h => by cases h

/-- A check that fails with a message about a field has one message. -/
theorem OneMessage.failFor (f : Field) {words : String} (h : words ≠ "") :
    OneMessage (Script.failFor f words) := by
  refine .bind fun handle => .fail fun hempty => h ?_
  exact (String.append_eq_empty_iff.1 hempty).2

variable (search : PatternSearch)

/-- The check of dependencies records messages. -/
theorem checkDependsOn_records (names : List Value) (f : Field) (scene : Scene) :
    (checkDependsOn names f scene).Records := by
  induction names with
  | nil => rfl
  | cons name rest ih =>
    unfold checkDependsOn
    split
    · rfl
    · dsimp only
      -- A dependency that is missing has its message, and then come the other dependencies.
      split
      · split
        · rfl
        · exact congrArg (Effect.record _ :: ·) ih
      · exact ih

/-- The message about a dependency is not empty. -/
theorem requirement_ne_empty {f : Field} {scene : Scene} {name : Value} {message : String}
    (h : requirement f scene name = .ok message) : message ≠ "" := by
  obtain ⟨handle, -, h⟩ := bind_eq_ok_iff.1 h
  obtain ⟨other, -, h⟩ := bind_eq_ok_iff.1 h
  obtain rfl := Except.ok.inj h
  simp

/-- The messages of the check of dependencies are texts that are not empty. -/
theorem checkDependsOn_texts (names : List Value) (f : Field) (scene : Scene) :
    (checkDependsOn names f scene).Texts := by
  induction names with
  | nil => exact nofun
  | cons name rest ih =>
    unfold checkDependsOn
    split
    · exact nofun
    · dsimp only
      split
      · split
        · exact nofun
        · next message hmessage =>
          exact List.forall_mem_cons.2 ⟨⟨message, rfl, requirement_ne_empty hmessage⟩, ih⟩
      · exact ih

/-- A built-in check other than that of dependencies is met, or it fails with one message. -/
theorem oneMessage (c : BuiltinCheck) (hc : c ≠ .dependsOn) (argument v : Value) (f : Field)
    (scene : Scene) :
    ∃ x, OneMessage x ∧ c.script search argument v f scene = .ofExcept x := by
  -- What a check says after the handle begins with a blank.
  have hfails : ∀ {words : String}, words ≠ "" → OneMessage (Script.failFor f words) := .failFor f
  cases c with
  | between => exact ⟨_, .bind fun _ => .bind fun _ => .ite (.bind fun _ => hfails (by simp)) .pass, rfl⟩
  | length =>
    exact ⟨_, .bind fun _ => .ite .pass (.bind fun _ => .ite (.bind fun _ => hfails (by simp)) .pass), rfl⟩
  | maxLength => exact ⟨_, .bind fun _ => .bind fun _ => .ite (.bind fun _ => hfails (by simp)) .pass, rfl⟩
  | minLength => exact ⟨_, .bind fun _ => .bind fun _ => .ite (.bind fun _ => hfails (by simp)) .pass, rfl⟩
  | matchesField =>
    exact ⟨_, .bind fun _ => .bind fun _ => .bind fun _ => .ite (.bind fun _ => hfails (by simp)) .pass, rfl⟩
  | options => exact ⟨_, .bind fun _ => .bind fun _ => .ite .pass (hfails (by simp)), rfl⟩
  | pattern =>
    refine ⟨checkPattern search argument v f, ?_, rfl⟩
    unfold checkPattern
    split
    · exact .bind fun _ => .ite .pass (hfails (by simp))
    · exact .bind fun _ => .bind fun _ => .ite .pass (hfails (by simp))
  | dependsOn => exact absurd rfl hc
  | classCount k limit =>
    refine ⟨_, .bind fun _ => .bind fun _ => ?_, rfl⟩
    cases limit with
    | least => exact .ite (.bind fun _ => hfails (by simp)) .pass
    | greatest => exact .ite (.bind fun _ => hfails (by simp)) .pass
  | sum limit =>
    refine ⟨checkSum limit argument v f, ?_, rfl⟩
    unfold checkSum
    split
    · exact .error _
    · exact hfails (by simp)
    · refine .bind fun _ => ?_
      cases limit with
      | least => exact .ite (.bind fun _ => hfails (by simp)) .pass
      | greatest => exact .ite (.bind fun _ => hfails (by simp)) .pass

/-- A built-in check does nothing but record messages. -/
theorem records (c : BuiltinCheck) (argument v : Value) (f : Field) (scene : Scene) :
    (c.script search argument v f scene).Records := by
  by_cases hc : c = .dependsOn
  · subst hc
    exact checkDependsOn_records _ f scene
  · obtain ⟨x, hx, hscript⟩ := c.oneMessage search hc argument v f scene
    rw [hscript]
    exact hx.records

/-- The messages of a built-in check are texts that are not empty. -/
theorem texts (c : BuiltinCheck) (argument v : Value) (f : Field) (scene : Scene) :
    (c.script search argument v f scene).Texts := by
  by_cases hc : c = .dependsOn
  · subst hc
    exact checkDependsOn_texts _ f scene
  · obtain ⟨x, hx, hscript⟩ := c.oneMessage search hc argument v f scene
    rw [hscript]
    exact hx.texts

/-- The handle of another field in a message is the same in scenes that are alike. -/
theorem handleOf_congr {s s' : Scene} (h : s.Alike s') (name : Value) :
    handleOf s name = handleOf s' name := by
  have hhandle := h.handles name
  unfold handleOf
  cases hs : s.fields.lookup name with
  | none =>
    cases hs' : s'.fields.lookup name with
    | none => rfl
    | some g =>
      rw [hs, hs'] at hhandle
      cases hhandle
  | some f =>
    cases hs' : s'.fields.lookup name with
    | none =>
      rw [hs, hs'] at hhandle
      cases hhandle
    | some g =>
      rw [hs, hs'] at hhandle
      exact Option.some.inj hhandle

/-- The parameters are the same in scenes that are alike. -/
theorem param_congr {s s' : Scene} (h : s.Alike s') (name : Value) :
    param s name = param s' name := by
  unfold param
  rw [h.params]

/-- A built-in check goes by the handle of the field, the parameters and the handles of all
fields. -/
theorem script_congr (c : BuiltinCheck) (argument v : Value) {f g : Field}
    (hf : f.handle = g.handle) {s s' : Scene} (hs : s.Alike s') :
    c.script search argument v f s = c.script search argument v g s' := by
  have hfails : ∀ words, Script.failFor f words = Script.failFor g words := by
    intro words
    rw [Script.failFor, Script.failFor, hf]
  -- The one check that goes on after a message is taken by itself.
  have hdepends : ∀ names, checkDependsOn names f s = checkDependsOn names g s' := by
    intro names
    induction names with
    | nil => rfl
    | cons name rest ih =>
      have hmessage : requirement f s name = requirement g s' name := by
        rw [requirement, requirement, handleOf_congr hs, hf]
      rw [checkDependsOn, checkDependsOn, param_congr hs, hmessage, ih]
  cases c with
  | between => simp only [script, checkBetween, hfails]
  | length => simp only [script, checkLength, hfails]
  | maxLength => simp only [script, checkMaxLength, hfails]
  | minLength => simp only [script, checkMinLength, hfails]
  | matchesField => simp only [script, checkMatches, param_congr hs, handleOf_congr hs, hfails]
  | options => simp only [script, checkOptions, hfails]
  | pattern => simp only [script, checkPattern, hfails]
  | dependsOn => exact hdepends _
  | classCount k limit => simp only [script, checkClassCount, hfails]
  | sum limit => simp only [script, checkSum, hfails]

end BuiltinCheck

/-- All checks of the directive table are built in. -/
def DirectiveTable.OnlyBuiltin (table : DirectiveTable) : Prop :=
  ∀ key check, table.check? key = some check → ∃ c, check = .builtin c

/-- The checks that are always at hand are built in. -/
theorem DirectiveTable.onlyBuiltin_builtin : builtin.OnlyBuiltin := by
  -- The table is gone through once, and what is found in it is then one of its checks.
  have hall : builtin.all (fun e => e.2.check.all fun check =>
      Check.casesOn check (fun _ => true) fun _ => false) = true := rfl
  intro key check h
  obtain ⟨d, hd, hcheck⟩ := Option.bind_eq_some_iff.1 h
  obtain ⟨l, hl, -⟩ := Entries.exists_mem_of_lookup hd
  have hd' := List.all_eq_true.1 hall _ hl
  cases check with
  | builtin c => exact ⟨c, rfl⟩
  | custom callback =>
    dsimp only at hd'
    rw [hcheck] at hd'
    cases hd'

end ParamCheck
