import ParamCheck.Proofs.Check.Reading
import ParamCheck.Proofs.Value.Writable

/-!
# Arguments that can be read

The argument of a check comes from a document, where it may be anything. A check that cannot be carried out ends
with a fault of a conversion (`BuiltinCheck.converts_answer`), which has nothing to do with what is
declared. One that is carried out can read its argument (`BuiltinCheck.readable_of_answers`), and one that can
read its argument is carried out if it can write all that it may show
(`BuiltinCheck.Legible.answers_iff_readable`).
-/

namespace ParamCheck

/-- A fault comes from reading a value as something that it is not, or from writing one without a text. -/
def Fault.IsConversion (e : Fault) : Prop := e.kind = .value ∨ e.kind = .type ∨ e.kind = .overflow

/-! ## Conversions -/

/-- Whatever fault a computation ends with is one of a conversion. -/
def Converts {α : Type} (x : Except Fault α) : Prop := ∀ e, x = .error e → e.IsConversion

namespace Converts

variable {α β : Type} {x : Except Fault α}

theorem ok (a : α) : Converts (.ok a : Except Fault α) := fun _ h => by cases h

theorem badValue : Converts (.error .badValue : Except Fault α) := fun _ h =>
  Except.error.inj h ▸ .inl rfl

theorem badType : Converts (.error .badType : Except Fault α) := fun _ h =>
  Except.error.inj h ▸ .inr (.inl rfl)

theorem overflow : Converts (.error .overflow : Except Fault α) := fun _ h =>
  Except.error.inj h ▸ .inr (.inr rfl)

theorem bind (hx : Converts x) {f : α → Except Fault β} (hf : ∀ a, Converts (f a)) : Converts (x >>= f) := by
  intro e h
  obtain h | ⟨a, -, h⟩ := bind_eq_error_iff.1 h
  · exact hx e h
  · exact hf a e h

theorem ite {p : Prop} [Decidable p] {y : Except Fault α} (hx : Converts x) (hy : Converts y) :
    Converts (if p then x else y) := by
  split
  · exact hx
  · exact hy

end Converts

namespace Value

theorem converts_write (v : Value) : Converts v.write := by
  intro e h
  obtain ⟨-, rfl⟩ := write_eq_error_iff.1 h
  exact .inl rfl

theorem converts_toInt (v : Value) : Converts v.toInt := by
  unfold toInt
  split
  · exact .ok _
  · exact .ok _
  · exact .badValue
  · split
    · exact .ok _
    · exact .overflow
  · split
    · exact .ok _
    · exact .badValue
  · split
    · exact .ok _
    · exact .badValue
  · exact .badType

theorem converts_toFloat (v : Value) : Converts v.toFloat := by
  unfold toFloat
  split
  · split
    · exact .overflow
    · exact .ok _
  · exact .ok _
  · exact .ok _
  · split
    · exact .ok _
    · exact .badValue
  · split
    · exact .ok _
    · exact .badValue
  · exact .badType

theorem converts_items (v : Value) : Converts v.items := by
  unfold items
  split
  case h_7 => exact .badType
  all_goals exact .ok _

theorem converts_mapM_write (vs : List Value) : Converts (vs.mapM write) := by
  induction vs with
  | nil => exact .ok _
  | cons v rest ih =>
    rw [List.mapM_cons]
    exact (converts_write v).bind fun _ => ih.bind fun _ => .ok _

end Value

namespace BuiltinCheck

variable (argument v : Value) (f : Field) (scene : Scene)

theorem converts_size : Converts (size v) := v.converts_write.bind fun _ => .ok _

theorem converts_pair : Converts (pair argument) := by
  refine argument.converts_items.bind fun vs => ?_
  split
  · exact .ok _
  · exact .badValue

theorem converts_bounds : Converts (bounds argument) := by
  unfold bounds
  split
  · exact (Value.converts_toInt _).bind fun _ => (Value.converts_toInt _).bind fun _ => .ok _
  · exact (converts_pair _).bind fun _ =>
      (Value.converts_toInt _).bind fun _ => (Value.converts_toInt _).bind fun _ => .ok _

theorem converts_rangeText : Converts (rangeText argument) := by
  unfold rangeText
  split
  · exact .ok _
  · exact (converts_pair _).bind fun _ =>
      (Value.converts_write _).bind fun _ => (Value.converts_write _).bind fun _ => .ok _

theorem converts_param (name : Value) : Converts (param scene name) := .ite (.ok _) .badType

theorem converts_optionTexts : Converts (optionTexts argument) := by
  unfold optionTexts
  split
  · exact .ok _
  · exact argument.converts_items.bind Value.converts_mapM_write

theorem converts_requirement (name : Value) : Converts (requirement f scene name) :=
  f.handle.converts_write.bind fun _ => (Value.converts_write _).bind fun _ => .ok _

/-! ## Faults of checks -/

/-- If a check cannot be carried out, that is for a conversion. -/
def FailsByConversion (x : Except Fault Script) : Prop := Converts (Script.ofExcept x).answer

namespace FailsByConversion

variable {x : Except Fault Script}

theorem pass : FailsByConversion (.ok .pass) := Converts.ok _

theorem bind {α : Type} {x : Except Fault α} (hx : Converts x) {f : α → Except Fault Script}
    (hf : ∀ a, FailsByConversion (f a)) : FailsByConversion (x >>= f) := by
  cases x with
  | error e => exact fun e' h => hx e' (congrArg Except.error (Except.error.inj h))
  | ok a => exact hf a

theorem ite {p : Prop} [Decidable p] {y : Except Fault Script} (hx : FailsByConversion x)
    (hy : FailsByConversion y) : FailsByConversion (if p then x else y) := by
  split
  · exact hx
  · exact hy

theorem failFor (f : Field) (words : String) : FailsByConversion (Script.failFor f words) :=
  .bind f.handle.converts_write fun _ => Converts.ok _

end FailsByConversion

/-- The check of dependencies fails for a name that is no key, or for one that cannot be shown. -/
theorem converts_checkDependsOn (names : List Value) : Converts (checkDependsOn names f scene).answer := by
  induction names with
  | nil => exact .ok _
  | cons name rest ih =>
    unfold checkDependsOn
    have hname := converts_param scene name
    have hmessage := converts_requirement f scene name
    split
    · next e he => exact fun e' h => hname e' (he.trans (congrArg Except.error (Except.error.inj h)))
    · dsimp only
      split
      · split
        · next e he => exact fun e' h => hmessage e' (he.trans (congrArg Except.error (Except.error.inj h)))
        · exact fun e h => ih e (map_eq_error_iff.1 h)
      · exact ih

/-- The fault of a check is one of a conversion. -/
theorem converts_answer (c : BuiltinCheck) (search : PatternSearch) :
    Converts (c.script search argument v f scene).answer := by
  have hargument : Converts argument.toInt := argument.converts_toInt
  cases c with
  | between =>
    show FailsByConversion (checkBetween argument v f)
    exact .bind (converts_bounds _) fun _ => .bind (converts_size v) fun _ =>
      .ite (.bind (converts_rangeText _) fun _ => .failFor f _) .pass
  | length =>
    show FailsByConversion (checkLength argument v f)
    exact .bind (converts_size v) fun _ => .ite .pass <|
      .bind hargument fun _ => .ite (.bind argument.converts_write fun _ => .failFor f _) .pass
  | maxLength =>
    show FailsByConversion (checkMaxLength argument v f)
    exact .bind (converts_size v) fun _ => .bind hargument fun _ =>
      .ite (.bind argument.converts_write fun _ => .failFor f _) .pass
  | minLength =>
    show FailsByConversion (checkMinLength argument v f)
    exact .bind (converts_size v) fun _ => .bind hargument fun _ =>
      .ite (.bind argument.converts_write fun _ => .failFor f _) .pass
  | matchesField =>
    show FailsByConversion (checkMatches argument v f scene)
    exact .bind (converts_param scene argument) fun _ =>
      .bind v.converts_write fun _ => .bind (Value.converts_write _) fun _ =>
        .ite (.bind (Value.converts_write _) fun _ => .failFor f _) .pass
  | options =>
    show FailsByConversion (checkOptions argument v f)
    exact .bind (converts_optionTexts argument) fun _ =>
      .bind v.converts_write fun _ => .ite .pass (.failFor f _)
  | pattern =>
    show FailsByConversion (checkPattern search argument v f)
    unfold checkPattern
    split
    · exact .bind v.converts_write fun _ => .ite .pass (.failFor f _)
    · exact .bind argument.converts_write fun _ => .bind v.converts_write fun _ =>
        .ite .pass (.failFor f _)
  | dependsOn => exact converts_checkDependsOn f scene argument.toList
  | classCount k limit =>
    show FailsByConversion (checkClassCount k limit argument v f)
    refine .bind v.converts_write fun _ => .bind hargument fun _ => ?_
    cases limit with
    | least => exact .ite (.bind (Value.converts_write _) fun _ => .failFor f _) .pass
    | greatest => exact .ite (.bind (Value.converts_write _) fun _ => .failFor f _) .pass
  | sum limit =>
    show FailsByConversion (checkSum limit argument v f)
    unfold checkSum
    split
    · exact Converts.overflow
    · exact .failFor f _
    · refine .bind argument.converts_toFloat fun _ => ?_
      cases limit with
      | least => exact .ite (.bind argument.converts_write fun _ => .failFor f _) .pass
      | greatest => exact .ite (.bind argument.converts_write fun _ => .failFor f _) .pass

/-! ## Reading an argument -/

/-- The check can read its argument when it is made on a value. A length is not read for an empty value, and a
limit not for a value that is no number. -/
def Readable (c : BuiltinCheck) (argument v : Value) : Prop :=
  match c with
  | between => (bounds argument).isOk = true
  | length => v.text ≠ "" → argument.toInt.isOk = true
  | maxLength | minLength | classCount _ _ => argument.toInt.isOk = true
  | matchesField => argument.isKey = true
  | options => (optionTexts argument).isOk = true
  | pattern => True
  | dependsOn => argument.toList.all Value.isKey = true
  | sum _ =>
    match v.toFloat with
    | .ok _ => argument.toFloat.isOk = true
    | .error e => e ≠ .overflow

/-- What is computed first can be computed if all of it can. -/
theorem isOk_bind {α β : Type} {x : Except Fault α} {f : α → Except Fault β} (h : (x >>= f).isOk = true) :
    ∃ a, x = .ok a ∧ (f a).isOk = true := by
  cases x with
  | error e => cases h
  | ok a => exact ⟨a, rfl, h⟩

/-- A script can be carried out only if it can be made. -/
theorem isOk_of_answer {x : Except Fault Script} (h : (Script.ofExcept x).answer.isOk = true) :
    x.isOk = true := by
  cases x with
  | error e => cases h
  | ok s => rfl

/-- The length of a value is that of its text. -/
theorem size_eq_ok {n : Nat} (h : size v = .ok n) : n = v.text.length := by
  obtain ⟨text, htext, hn⟩ := bind_eq_ok_iff.1 h
  obtain ⟨-, rfl⟩ := Value.write_eq_ok_iff.1 htext
  exact (Except.ok.inj hn).symm

/-- Dependencies are checked on names that are keys. -/
theorem isKey_of_isOk_dependsOn {names : List Value} (h : (checkDependsOn names f scene).answer.isOk = true) :
    ∀ name ∈ names, name.isKey = true := by
  induction names with
  | nil => exact List.forall_mem_nil _
  | cons name rest ih =>
    rw [checkDependsOn] at h
    cases hkey : name.isKey with
    | false =>
      rw [param, hkey] at h
      cases h
    | true =>
      refine List.forall_mem_cons.2 ⟨hkey, ih ?_⟩
      rw [param, hkey, if_pos rfl] at h
      dsimp only at h
      split at h
      · split at h
        · cases h
        · cases hlater : (checkDependsOn rest f scene).answer with
          | error e =>
            rw [hlater] at h
            cases h
          | ok a => rfl
      · exact h

variable {argument v f scene}

/-- A check that is carried out has read its argument. -/
theorem readable_of_answers {c : BuiltinCheck} {search : PatternSearch}
    (h : c.answers search argument v f scene = true) : c.Readable argument v := by
  -- What is read after something else is read, too.
  have hread : ∀ {α β : Type} {x : Except Fault α} {y : Except Fault β} {z : α → β → Except Fault Script},
      (Script.ofExcept (x >>= fun a => y >>= z a)).answer.isOk = true → y.isOk = true := by
    intro α β x y z hmade
    obtain ⟨a, -, hrest⟩ := isOk_bind (isOk_of_answer hmade)
    obtain ⟨b, rfl, -⟩ := isOk_bind hrest
    rfl
  cases c with
  | between =>
    obtain ⟨bound, hbound, -⟩ := isOk_bind (isOk_of_answer h)
    show (bounds argument).isOk = true
    rw [hbound]
    rfl
  | length =>
    intro htext
    obtain ⟨n, hn, hrest⟩ := isOk_bind (isOk_of_answer h)
    have hsize : n ≠ 0 := by
      rw [size_eq_ok v hn]
      exact fun hlength => htext (String.length_eq_zero_iff.1 hlength)
    rw [if_neg hsize] at hrest
    obtain ⟨m, hm, -⟩ := isOk_bind hrest
    rw [hm]
    rfl
  | maxLength => exact hread h
  | minLength => exact hread h
  | matchesField =>
    obtain ⟨other, hother, -⟩ := isOk_bind (isOk_of_answer h)
    show argument.isKey = true
    by_contra hkey
    rw [param, if_neg hkey] at hother
    cases hother
  | options =>
    obtain ⟨texts, htexts, -⟩ := isOk_bind (isOk_of_answer h)
    show (optionTexts argument).isOk = true
    rw [htexts]
    rfl
  | pattern => trivial
  | dependsOn => exact List.all_eq_true.2 (isKey_of_isOk_dependsOn f scene h)
  | classCount k limit => exact hread h
  | sum limit =>
    have hmade := isOk_of_answer h
    change (checkSum limit argument v f).isOk = true at hmade
    unfold checkSum at hmade
    unfold Readable
    cases hv : v.toFloat with
    | error e =>
      rw [hv] at hmade
      rintro rfl
      cases hmade
    | ok x =>
      rw [hv] at hmade
      obtain ⟨bound, hbound, -⟩ := isOk_bind hmade
      dsimp only
      rw [hbound]
      rfl

/-! ## What a check shows -/

/-- Whatever a check of a field may show can be written: the value, the handle of the field, the other
parameters and the handles of other fields. -/
structure Legible (v : Value) (f : Field) (scene : Scene) : Prop where
  value : v.writable = true
  handle : f.handle.writable = true
  params : ∀ k x, scene.params.lookup k = some x → x.writable = true
  handles : ∀ k g, scene.fields.lookup k = some g → g.handle.writable = true

/-- The argument can be written, and the number of characters that it may stand for. -/
structure Showable (c : BuiltinCheck) (argument : Value) : Prop where
  written : argument.writable = true
  count : ∀ k limit n, c = .classCount k limit → argument.toInt = .ok n → (Value.int n).writable = true

/-- A failure of a field can be told if its handle can be written. -/
theorem failFor_of_writable (h : f.handle.writable = true) (words : String) :
    Script.failFor f words = .ok (.fail (f.handle.text ++ words)) := by
  rw [Script.failFor, Value.write_of_writable h]
  rfl

/-- A range with bounds can be shown if it can be written. -/
theorem rangeText_of_bounds (hargument : argument.writable = true) {bound : Int × Int}
    (h : bounds argument = .ok bound) : ∃ text, rangeText argument = .ok text := by
  unfold bounds at h
  split at h
  · exact ⟨_, rfl⟩
  · next hstr =>
    obtain ⟨⟨_, _⟩, hpair, -⟩ := bind_eq_ok_iff.1 h
    obtain ⟨vs, hitems, hvs⟩ := bind_eq_ok_iff.1 hpair
    have hwritable := Value.writable_of_items hargument hitems
    split at hvs
    · next low high =>
      obtain ⟨rfl, rfl⟩ := Prod.mk.inj (Except.ok.inj hvs)
      refine ⟨low.text ++ "-" ++ high.text, ?_⟩
      rw [rangeText, hpair]
      · show (do return (← low.write) ++ "-" ++ (← high.write) : Except Fault String) = _
        rw [Value.write_of_writable (hwritable low List.mem_cons_self),
          Value.write_of_writable (hwritable high (List.mem_cons_of_mem _ List.mem_cons_self))]
        rfl
      · exact hstr
    · cases hvs

/-- The handle of a field, or the name that stands for it, can be written if the name can. -/
theorem Legible.handleOf (h : Legible v f scene) {name : Value} (hname : name.writable = true) :
    (handleOf scene name).writable = true := by
  unfold BuiltinCheck.handleOf
  cases hg : scene.fields.lookup name with
  | none => exact hname
  | some g => exact h.handles name g hg

/-- Another parameter can be written. -/
theorem Legible.param (h : Legible v f scene) {name : Value} (hkey : name.isKey = true) :
    ∃ x, param scene name = .ok x ∧ x.writable = true := by
  refine ⟨_, if_pos hkey, ?_⟩
  cases hx : scene.params.lookup name with
  | none => rfl
  | some x => exact h.params name x hx

/-- A dependency on parameters under keys that can be written can be checked. -/
theorem Legible.isOk_dependsOn (h : Legible v f scene) {names : List Value}
    (hnames : ∀ name ∈ names, name.isKey = true ∧ name.writable = true) :
    (checkDependsOn names f scene).answer.isOk = true := by
  induction names with
  | nil => rfl
  | cons name rest ih =>
    obtain ⟨⟨hkey, hname⟩, hrest⟩ := List.forall_mem_cons.1 hnames
    obtain ⟨x, hx, -⟩ := h.param hkey
    have hmessage : requirement f scene name =
        .ok (f.handle.text ++ " requires " ++ (BuiltinCheck.handleOf scene name).text) := by
      rw [requirement, Value.write_of_writable h.handle, Value.write_of_writable (h.handleOf hname)]
      rfl
    have hlater := ih hrest
    rw [checkDependsOn, hx]
    dsimp only
    split
    · rw [hmessage]
      dsimp only
      cases hanswer : (checkDependsOn rest f scene).answer with
      | ok a => rfl
      | error e =>
        rw [hanswer] at hlater
        cases hlater
    · exact hlater

/-- The value can be compared with the parameter under a key that can be written. -/
theorem Legible.isOk_matches (h : Legible v f scene) (hkey : argument.isKey = true)
    (hargument : argument.writable = true) :
    (Script.ofExcept (checkMatches argument v f scene)).answer.isOk = true := by
  obtain ⟨x, hx, hwritable⟩ := h.param hkey
  have hother : (if x.isBlank then .str "" else x : Value).writable = true := by
    split
    · rfl
    · exact hwritable
  unfold checkMatches
  simp only [hx, Value.write_of_writable h.value, Value.write_of_writable hother,
    Value.write_of_writable (h.handleOf hargument), failFor_of_writable h.handle, bind, Except.bind]
  split <;> split <;> rfl

/-- A limit on the value as a number can be checked if it can be read. -/
theorem Legible.isOk_checkSum (h : Legible v f scene) (limit : Limit) (hargument : argument.writable = true)
    (hreadable : (sum limit).Readable argument v) :
    (Script.ofExcept (checkSum limit argument v f)).answer.isOk = true := by
  unfold Readable at hreadable
  unfold checkSum
  cases hv : v.toFloat with
  | error e =>
    rw [hv] at hreadable
    -- Any other fault of the value is a message.
    cases e with
    | overflow => exact absurd rfl hreadable
    | _ =>
      dsimp only
      rw [failFor_of_writable h.handle]
      rfl
  | ok x =>
    rw [hv] at hreadable
    cases hbound : argument.toFloat with
    | error e =>
      rw [hbound] at hreadable
      cases hreadable
    | ok bound =>
      simp only [Value.write_of_writable hargument, failFor_of_writable h.handle, bind, Except.bind]
      cases limit with
      | least =>
        dsimp only
        split <;> rfl
      | greatest =>
        dsimp only
        split <;> rfl

/-- What can be read as an integer is one. -/
theorem exists_of_isOk {α : Type} {x : Except Fault α} (h : x.isOk = true) : ∃ a, x = .ok a := by
  cases x with
  | error e => cases h
  | ok a => exact ⟨a, rfl⟩

/-- If all that a check may show can be written, it is carried out exactly if it can read its argument. -/
theorem Legible.answers_iff_readable (h : Legible v f scene) (c : BuiltinCheck) (search : PatternSearch)
    (hargument : c.Showable argument) :
    c.answers search argument v f scene = true ↔ c.Readable argument v := by
  refine ⟨readable_of_answers, fun hreadable => ?_⟩
  unfold answers
  -- What the checks show is written out.
  have hvalue := Value.write_of_writable h.value
  have hshown := Value.write_of_writable hargument.written
  have hfail := failFor_of_writable h.handle
  cases c with
  | between =>
    obtain ⟨bound, hbounds⟩ := exists_of_isOk hreadable
    obtain ⟨text, htext⟩ := rangeText_of_bounds hargument.written hbounds
    simp only [script, checkBetween, size, hbounds, htext, hvalue, hfail, bind, Except.bind, pure,
      Except.pure]
    split <;> rfl
  | length =>
    simp only [script, checkLength, size, hvalue, hshown, hfail, bind, Except.bind, pure, Except.pure]
    split
    · rfl
    · next hsize =>
      obtain ⟨n, hn⟩ := exists_of_isOk (hreadable fun hempty => hsize (by rw [hempty]; rfl))
      rw [hn]
      dsimp only
      split <;> rfl
  | maxLength =>
    obtain ⟨n, hn⟩ := exists_of_isOk hreadable
    simp only [script, checkMaxLength, size, hn, hvalue, hshown, hfail, bind, Except.bind, pure,
      Except.pure]
    split <;> rfl
  | minLength =>
    obtain ⟨n, hn⟩ := exists_of_isOk hreadable
    simp only [script, checkMinLength, size, hn, hvalue, hshown, hfail, bind, Except.bind, pure,
      Except.pure]
    split <;> rfl
  | matchesField => exact h.isOk_matches hreadable hargument.written
  | options =>
    obtain ⟨texts, htexts⟩ := exists_of_isOk hreadable
    simp only [script, checkOptions, htexts, hvalue, hfail, bind, Except.bind]
    split <;> rfl
  | pattern =>
    simp only [script, checkPattern, hvalue, hfail, bind, Except.bind]
    split
    · split <;> rfl
    · simp only [hshown]
      split <;> rfl
  | dependsOn =>
    refine h.isOk_dependsOn fun name hname => ⟨List.all_eq_true.1 hreadable name hname, ?_⟩
    exact Value.writable_of_mem_toList hargument.written hname
  | classCount k limit =>
    obtain ⟨n, hn⟩ := exists_of_isOk hreadable
    have hcount := Value.write_of_writable (hargument.count k limit n rfl hn)
    simp only [script, checkClassCount, hn, hvalue, hcount, hfail, bind, Except.bind]
    cases limit with
    | least =>
      dsimp only
      split <;> rfl
    | greatest =>
      dsimp only
      split <;> rfl
  | sum limit => exact h.isOk_checkSum limit hargument.written hreadable

end BuiltinCheck

end ParamCheck
