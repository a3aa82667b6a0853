import ParamCheck.Proofs.Check

/-!
# What built-in checks read

Of the parameters of a run a built-in check reads the one that the value is to match, or those that it
depends on (`BuiltinCheck.reads`). What it reads makes no difference to what it does as long as it reads
as the same text, or stays as blank as it was (`Alike`, `script_of_alike`).
-/

namespace ParamCheck.BuiltinCheck

/-- The names of the parameters that a check reads. -/
def reads (c : BuiltinCheck) (argument : Value) : List Value :=
  match c with
  | matchesField => [argument]
  | dependsOn => argument.toList
  | _ => []

/-- Only two of the built-in checks read parameters. -/
theorem reads_eq_nil {c : BuiltinCheck} (hmatches : c ≠ matchesField) (hdepends : c ≠ dependsOn)
    (argument : Value) : c.reads argument = [] := by
  cases c with
  | matchesField => exact absurd rfl hmatches
  | dependsOn => exact absurd rfl hdepends
  | _ => rfl

/-- What the value of a parameter has to match, if it can be written: something blank is matched by what
is empty. -/
def target (v : Value) : Option String := (if v.isBlank then .str "" else v : Value).write?

/-- Two values of a parameter make no difference to a check that reads it. -/
def Alike (c : BuiltinCheck) (x y : Value) : Prop :=
  match c with
  | matchesField => target x = target y
  | dependsOn => x.isBlank = y.isBlank
  | _ => True

instance (c : BuiltinCheck) (x y : Value) : Decidable (c.Alike x y) :=
  match c with
  | matchesField => inferInstanceAs (Decidable (target x = target y))
  | dependsOn => inferInstanceAs (Decidable (x.isBlank = y.isBlank))
  | between | length | maxLength | minLength | options | pattern | classCount _ _ | sum _ =>
    isTrue trivial

/-- A value makes no difference to itself. -/
theorem Alike.refl (c : BuiltinCheck) (x : Value) : c.Alike x x := by
  cases c <;> first | rfl | trivial

/-- Making no difference goes both ways. -/
theorem Alike.symm {c : BuiltinCheck} {x y : Value} (h : c.Alike x y) : c.Alike y x := by
  cases c with
  | matchesField => exact Eq.symm h
  | dependsOn => exact Eq.symm h
  | _ => trivial

/-- Whether a check can be carried out. -/
def answers (c : BuiltinCheck) (search : PatternSearch) (argument v : Value) (f : Field)
    (scene : Scene) : Bool :=
  (c.script search argument v f scene).answer.isOk

/-- Whether a check can be carried out depends on the field by its handle, and on the run by the
parameters and the handles of the fields. -/
theorem answers_congr (c : BuiltinCheck) (search : PatternSearch) (argument v : Value) {f g : Field}
    (hf : f.handle = g.handle) {s s' : Scene} (hs : s.Alike s') :
    c.answers search argument v f s = c.answers search argument v g s' := by
  unfold answers
  rw [c.script_congr search argument v hf hs]

/-! ## What parameters make a difference -/

variable {p q : Entries Value} (fields : Entries Field)

/-- A value matches one parameter as it matches another with the same text. -/
theorem checkMatches_of_alike {argument : Value}
    (h : target ((p.lookup argument).getD .null) = target ((q.lookup argument).getD .null))
    (v : Value) (f : Field) :
    checkMatches argument v f ⟨p, fields⟩ = checkMatches argument v f ⟨q, fields⟩ := by
  unfold checkMatches param
  cases argument.isKey with
  | false => rfl
  | true =>
    -- The two parameters are compared by the texts to match.
    have hwrite : (if ((p.lookup argument).getD .null).isBlank then .str ""
          else (p.lookup argument).getD .null : Value).write =
        (if ((q.lookup argument).getD .null).isBlank then .str ""
          else (q.lookup argument).getD .null : Value).write := by
      unfold Value.write
      rw [target, target] at h
      rw [h]
    simp only [if_true, bind, Except.bind]
    rw [hwrite]
    rfl

/-- Dependencies are missing where the same parameters are blank. -/
theorem checkDependsOn_of_alike {names : List Value} (f : Field)
    (h : ∀ k ∈ names, ((p.lookup k).getD .null).isBlank = ((q.lookup k).getD .null).isBlank) :
    checkDependsOn names f ⟨p, fields⟩ = checkDependsOn names f ⟨q, fields⟩ := by
  induction names with
  | nil => rfl
  | cons name rest ih =>
    obtain ⟨hname, hrest⟩ := List.forall_mem_cons.1 h
    unfold checkDependsOn param
    cases name.isKey with
    | false => rfl
    | true =>
      simp only [if_true]
      rw [hname, ih hrest]
      rfl

/-- A check does the same with parameters that make no difference to it. -/
theorem script_of_alike (c : BuiltinCheck) (search : PatternSearch) (argument v : Value) (f : Field)
    (h : ∀ k ∈ c.reads argument,
      c.Alike ((p.lookup k).getD .null) ((q.lookup k).getD .null)) :
    c.script search argument v f ⟨p, fields⟩ = c.script search argument v f ⟨q, fields⟩ := by
  cases c with
  | matchesField =>
    exact congrArg Script.ofExcept
      (checkMatches_of_alike fields (h argument (List.mem_singleton_self argument)) v f)
  | dependsOn => exact checkDependsOn_of_alike fields f h
  | _ => rfl

end ParamCheck.BuiltinCheck
