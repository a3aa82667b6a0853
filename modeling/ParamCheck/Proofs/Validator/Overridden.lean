import ParamCheck.Proofs.Validator.Turn

/-!
# Fields with a message of their own

A field can have a message of its own, which is recorded in place of every other one
(`Field.effective_overriding`). A run and the run in which a field has such a message are related
(`Run.Overridden`) if they differ in messages only, if both reports are empty or none is, and if the field
has its own message in the one exactly if it has any in the other. Recording messages, setting fields and
changing anything else keeps them related.
-/

namespace ParamCheck

namespace Entries

variable {α : Type}

/-- The dictionary with a value at a place, instead of one that the key has had. -/
def placed (d : Entries α) (place : Nat) (k : Value) (x : α) : Entries α :=
  (d.erase k).take place ++ (k, x) :: (d.erase k).drop place

/-- All other entries stay in their order. -/
theorem erase_placed (d : Entries α) (place : Nat) (k : Value) (x : α) :
    (d.placed place k x).erase k = d.erase k := by
  have hkept : ∀ e ∈ d.erase k, decide (e.1.key? ≠ k.key?) = true := by
    intro e he
    rw [erase_eq_filter] at he
    exact (List.mem_filter.1 he).2
  rw [erase_eq_filter (d.placed place k x)]
  unfold placed
  rw [List.filter_append, List.filter_cons_of_neg (by simp),
    List.filter_eq_self.2 fun e he => hkept e (List.mem_of_mem_take he),
    List.filter_eq_self.2 fun e he => hkept e (List.mem_of_mem_drop he), List.take_append_drop]

/-- Other keys have the same values. -/
theorem lookup_placed_of_ne {k l : Value} (h : k.key? ≠ l.key?) (d : Entries α) (place : Nat) (x : α) :
    (d.placed place k x).lookup l = d.lookup l := by
  have herase : ∀ d : Entries α, (d.erase k).lookup l = d.lookup l := by
    intro d
    rw [lookup_erase, if_neg h]
  rw [← herase, erase_placed, herase]

end Entries

/-! ## Fields with a message of their own -/

namespace Field

/-- The field with a message of its own at a place among its directives, instead of those messages that it has
recorded. -/
def overriding (place : Nat) (message : String) (f : Field) : Field :=
  { f with
    directives := f.directives.placed place (.str "error") (.str message)
    errors := if f.errors.isEmpty then [] else [.str message] }

/-- A field under a key, with a message of its own if that is the given key. -/
def overridingAt (key : Value) (place : Nat) (message : String) (k : Value) (f : Field) : Field :=
  if k.key? = key.key? then f.overriding place message else f

variable {key : Value} {place : Nat} {message : String}

/-- Which field has a message of its own depends on the key, not on how it is spelt. -/
theorem overridingAt_congr {k l : Value} (h : k.key? = l.key?) (f : Field) :
    f.overridingAt key place message k = f.overridingAt key place message l := by
  unfold overridingAt
  rw [h]

/-- A message of its own is in one directive of the field. -/
theorem lookup_overridingAt {name : String} (h : name ≠ "error") (k : Value) (f : Field) :
    (f.overridingAt key place message k).directives.lookup (.str name) = f.directives.lookup (.str name) := by
  unfold overridingAt
  split
  · refine Entries.lookup_placed_of_ne (fun hkey => ?_) _ _ _
    exact h (Value.str.inj (Value.eq_str_of_key? hkey)).symm
  · rfl

/-- Another directive of the field is as it was. -/
theorem directive_overridingAt {name : String} (h : name ≠ "error") (k : Value) (f : Field) :
    (f.overridingAt key place message k).directive name = f.directive name := by
  unfold directive
  rw [lookup_overridingAt h]

/-- The field has the same name. -/
theorem name_overridingAt (k : Value) (f : Field) : (f.overridingAt key place message k).name = f.name := by
  unfold overridingAt
  split <;> rfl

/-- The field has the same handle. -/
theorem handle_overridingAt (k : Value) (f : Field) :
    (f.overridingAt key place message k).handle = f.handle := by
  unfold handle label
  rw [directive_overridingAt (by decide), name_overridingAt]

/-- Whatever a field has recorded, its own message is all that it has recorded then. -/
theorem recorded_overriding (f : Field) (place : Nat) (message : String) (m : Value) :
    { f.overriding place message with
      errors := Report.add (f.overriding place message).errors (.str message) } =
      ({ f with errors := Report.add f.errors m } : Field).overriding place message := by
  have herrors : Report.add (f.overriding place message).errors (.str message) = [.str message] := by
    unfold overriding
    cases f.errors.isEmpty with
    | true => rfl
    | false =>
      show Report.add [.str message] (.str message) = _
      simp [Report.add, Value.same_self]
  have hsome : (Report.add f.errors m).isEmpty = false := by
    simpa using Report.add_ne_nil f.errors m
  rw [herrors]
  unfold overriding
  dsimp only
  rw [hsome]
  rfl

end Field

/-- The fields, of which the one under a key has a message of its own. -/
def overrideAt (key : Value) (place : Nat) (message : String) (fields : Entries Field) : Entries Field :=
  fields.map fun (k, f) => (k, f.overridingAt key place message k)

section

variable {key : Value} {place : Nat} {message : String}

/-- A field is found where it was, with a message of its own if the key is the given one. -/
theorem lookup_overrideAt (fields : Entries Field) (k : Value) :
    (overrideAt key place message fields).lookup k =
      (fields.lookup k).map (Field.overridingAt key place message k) := by
  induction fields with
  | nil => rfl
  | cons e rest ih =>
    obtain ⟨l, g⟩ := e
    show Entries.lookup ((l, g.overridingAt key place message l) :: overrideAt key place message rest) k = _
    rw [Entries.lookup, Entries.lookup, ih]
    split
    · next hl => exact congrArg some (Field.overridingAt_congr hl g)
    · rfl

/-- A field that is set has a message of its own if its key is the given one. -/
theorem overrideAt_insert (fields : Entries Field) (k : Value) (f : Field) :
    overrideAt key place message (fields.insert k f) =
      (overrideAt key place message fields).insert k (f.overridingAt key place message k) := by
  induction fields with
  | nil => rfl
  | cons e rest ih =>
    obtain ⟨l, g⟩ := e
    show overrideAt key place message (Entries.insert ((l, g) :: rest) k f) =
      Entries.insert ((l, g.overridingAt key place message l) :: overrideAt key place message rest) k _
    rw [Entries.insert, Entries.insert]
    split
    · next hl =>
      show (l, f.overridingAt key place message l) :: overrideAt key place message rest = _
      rw [Field.overridingAt_congr hl]
    · rw [← ih]
      rfl

end

namespace Run

variable {key : Value} {place : Nat} {message : String} {r s : Run}

/-! ## Related states -/

/-- One run is the other one with a message of its own for a field, whose handle can be written. Its report
is another one, but it is empty exactly if the other report is, and that is not empty if the field has
recorded a message. -/
structure Overridden (key : Value) (place : Nat) (message : String) (r s : Run) : Prop where
  eq : s = { r with fields := overrideAt key place message r.fields, messages := s.messages }
  messages_iff : s.messages = [] ↔ r.messages = []
  reported : ∀ f, r.fields.lookup key = some f → f.errors ≠ [] → r.messages ≠ []
  legible : ∀ f, r.fields.lookup key = some f → f.handle.writable = true

namespace Overridden

/-- A field is found in both runs, in the one with its own message if it has one. -/
theorem lookup (h : Overridden key place message r s) (k : Value) :
    s.fields.lookup k = (r.fields.lookup k).map (Field.overridingAt key place message k) := by
  have hfields : s.fields = overrideAt key place message r.fields := congrArg fields h.eq
  rw [hfields, lookup_overrideAt]

/-- The handles of all fields are the same. -/
theorem alike (h : Overridden key place message r s) : r.scene.Alike s.scene := by
  refine ⟨(congrArg params h.eq :).symm, fun k => ?_⟩
  show Option.map Field.handle (r.fields.lookup k) = Option.map Field.handle (s.fields.lookup k)
  rw [h.lookup, Option.map_map]
  exact congrArg (Option.map · _) (funext fun f => (Field.handle_overridingAt k f).symm)

/-- What is kept beside fields and messages can change in both runs. -/
theorem changed (h : Overridden key place message r s) (change : Run → Run)
    (hchange : ∀ u fields messages,
      change { u with fields, messages } = { change u with fields, messages }) :
    Overridden key place message (change r) (change s) := by
  have hself : ∀ u, (change u).fields = u.fields ∧ (change u).messages = u.messages := by
    intro u
    have hu := hchange u u.fields u.messages
    exact ⟨(congrArg Run.fields hu :), (congrArg Run.messages hu :)⟩
  obtain ⟨hfields, hmessages⟩ := hself r
  refine ⟨?_, ?_, ?_, ?_⟩
  · rw [(hself s).2, hfields, ← hchange, ← h.eq]
  · rw [(hself s).2, hmessages]
    exact h.messages_iff
  · rw [hfields, hmessages]
    exact h.reported
  · rw [hfields]
    exact h.legible

/-- A field can be set if it has recorded a message in a run with messages only and its handle can be
written. -/
theorem setField (h : Overridden key place message r s) {k : Value} {f : Field}
    (hf : k.key? = key.key? → f.errors ≠ [] → r.messages ≠ [])
    (hlegible : k.key? = key.key? → f.handle.writable = true) :
    Overridden key place message { r with fields := r.fields.insert k f }
      { s with fields := s.fields.insert k (f.overridingAt key place message k) } := by
  have hs : s.fields = overrideAt key place message r.fields := congrArg fields h.eq
  refine ⟨?_, h.messages_iff, fun g hg => ?_, fun g hg => ?_⟩
  · dsimp only
    rw [overrideAt_insert, ← hs]
    exact congrArg (fun u : Run =>
      { u with fields := s.fields.insert k (f.overridingAt key place message k) }) h.eq
  · dsimp only at hg ⊢
    rw [Entries.lookup_insert] at hg
    split at hg
    · next hk =>
      obtain rfl := Option.some.inj hg
      exact hf hk
    · exact h.reported g hg
  · dsimp only at hg
    rw [Entries.lookup_insert] at hg
    split at hg
    · next hk =>
      obtain rfl := Option.some.inj hg
      exact hlegible hk
    · exact h.legible g hg

/-- Messages can be recorded in both runs, its own for a field that has one and the same one for any
other. -/
theorem recorded (h : Overridden key place message r s) {k : Value} {f : Field}
    (hf : r.fields.lookup k = some f) {m m' : Value} (hm : m' = if k.key? = key.key? then .str message else m) :
    Overridden key place message
      { r with
        fields := r.fields.insert k { f with errors := Report.add f.errors m }
        messages := Report.add r.messages m }
      { s with
        fields := s.fields.insert k { f.overridingAt key place message k with
          errors := Report.add (f.overridingAt key place message k).errors m' }
        messages := Report.add s.messages m' } := by
  have hrecorded : { f.overridingAt key place message k with
      errors := Report.add (f.overridingAt key place message k).errors m' } =
        ({ f with errors := Report.add f.errors m } : Field).overridingAt key place message k := by
    subst hm
    unfold Field.overridingAt
    split
    · exact f.recorded_overriding place message m
    · rfl
  have hset : Overridden key place message
      { r with
        fields := r.fields.insert k { f with errors := Report.add f.errors m }
        messages := Report.add r.messages m }
      { s with
        fields := s.fields.insert k
          (({ f with errors := Report.add f.errors m } : Field).overridingAt key place message k)
        messages := Report.add s.messages m' } := by
    have hs : s.fields = overrideAt key place message r.fields := congrArg fields h.eq
    refine ⟨?_, iff_of_false (Report.add_ne_nil _ _) (Report.add_ne_nil _ _),
      fun _ _ _ => Report.add_ne_nil _ _, fun g hg => ?_⟩
    · dsimp only
      rw [overrideAt_insert, ← hs]
      exact congrArg (fun u : Run => { u with
        fields := s.fields.insert k
          (({ f with errors := Report.add f.errors m } : Field).overridingAt key place message k)
        messages := Report.add s.messages m' }) h.eq
    · dsimp only at hg
      rw [Entries.lookup_insert] at hg
      split at hg
      · next hk =>
        obtain rfl := Option.some.inj hg
        exact h.legible f (Entries.lookup_congr hk _ ▸ hf)
      · exact h.legible g hg
  rw [hrecorded]
  exact hset

end Overridden

end Run

end ParamCheck
