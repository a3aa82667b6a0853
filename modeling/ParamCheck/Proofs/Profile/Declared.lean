import ParamCheck.Profile
import ParamCheck.Proofs.Entries
import ParamCheck.Proofs.Returns

/-!
# Declaring one after the other

The five sections of a profile hold declarations of five kinds, and what is declared goes the same way for
all of them: it is declared if it has a name that is new in its section (`Profile.declare_ok_iff`), and then
stands at the end of that (`Profile.extend`). Declarations one after the other are all declared if they are
new and have different names (`Profile.declareAll_of_addable`).
-/

namespace ParamCheck

/-- Whether a value is a mapping. -/
def Value.isMapping : Value → Bool
  | dict _ => true
  | _ => false

/-- A declaration in a profile. -/
inductive Declaration where
  | field (name spec : Value)
  | mixin (name spec : Value)
  | filter (name : Value) (f : Filter)
  | directive (name : Value) (d : Descriptor)
  | child (name : Value) (place : Nat)

namespace Declaration

/-- The section that a declaration belongs to. -/
def what : Declaration → Section
  | field .. => .field
  | mixin .. => .mixin
  | filter .. => .filter
  | directive .. => .directive
  | child .. => .child

/-- The name of a declaration. -/
def name : Declaration → Value
  | field name _ | mixin name _ | filter name _ | directive name _ | child name _ => name

/-- Whether directives are a mapping, as they have to be for a field and a mixin. -/
def isMapping : Declaration → Bool
  | field _ spec | mixin _ spec => spec.isMapping
  | filter .. | directive .. | child .. => true

/-- The entry of a field. -/
@[simp] def field? : Declaration → Option (Value × Value)
  | field name spec => some (name, spec)
  | _ => none

/-- The entry of a mixin. -/
@[simp] def mixin? : Declaration → Option (Value × Value)
  | mixin name spec => some (name, spec)
  | _ => none

/-- The entry of a filter. -/
@[simp] def filter? : Declaration → Option (Value × Filter)
  | filter name f => some (name, f)
  | _ => none

/-- The entry of a directive. -/
@[simp] def directive? : Declaration → Option (Value × Descriptor)
  | directive name d => some (name, d)
  | _ => none

/-- The entry of a child. -/
@[simp] def child? : Declaration → Option (Value × Nat)
  | child name place => some (name, place)
  | _ => none

/-- Two declarations have the same name in the same section. -/
def Same (d e : Declaration) : Prop := d.what = e.what ∧ d.name.key? = e.name.key?

theorem Same.symm {d e : Declaration} (h : d.Same e) : e.Same d := ⟨h.1.symm, h.2.symm⟩

/-- A declaration has a text for its name, which is not empty, and its directives are a mapping. -/
structure Sound (d : Declaration) : Prop where
  named : ∃ s, d.name = .str s ∧ s ≠ ""
  mapping : d.isMapping = true

end Declaration

namespace Profile

variable {p q other : Profile} {d e : Declaration} {ds : List Declaration}

/-- The declarations of a profile, section by section. -/
def listed (p : Profile) : List Declaration :=
  p.fields.map (fun e => .field e.1 e.2) ++ (p.mixins.map (fun e => .mixin e.1 e.2) ++
    (p.filters.map (fun e => .filter e.1 e.2) ++ (p.directives.map (fun e => .directive e.1 e.2) ++
      p.children.map fun e => .child e.1 e.2)))

/-- Whether the name of a declaration is taken in its section. -/
def declares (p : Profile) : Declaration → Bool
  | .field name _ => p.fields.contains name
  | .mixin name _ => p.mixins.contains name
  | .filter name _ => p.filters.contains name
  | .directive name _ => p.directives.contains name
  | .child name _ => p.children.contains name

/-- The profile with declarations at the end of its sections. -/
def extend (p : Profile) (ds : List Declaration) : Profile :=
  { p with
    fields := p.fields ++ ds.filterMap Declaration.field?
    mixins := p.mixins ++ ds.filterMap Declaration.mixin?
    filters := p.filters ++ ds.filterMap Declaration.filter?
    directives := p.directives ++ ds.filterMap Declaration.directive?
    children := p.children ++ ds.filterMap Declaration.child? }

/-- The name of a declaration if it can be declared in its section. -/
def newFor (p : Profile) : Declaration → Except Fault String
  | .field name _ => newName p.fields .field name
  | .mixin name _ => newName p.mixins .mixin name
  | .filter name _ => newName p.filters .filter name
  | .directive name _ => newName p.directives .directive name
  | .child name _ => newName p.children .child name

/-- Add a declaration to a profile. -/
def declare (p : Profile) : Declaration → Except Fault Profile
  | .field name spec => p.defineField name spec
  | .mixin name spec => p.defineMixin name spec
  | .filter name f => p.addFilter name f
  | .directive name d => p.addDirective name d
  | .child name place => p.defineChild name place

/-- Add declarations one after the other, until one cannot be added. -/
def declareAll : List Declaration → Profile → Profile × Option Fault
  | [], p => (p, none)
  | d :: rest, p =>
    match p.declare d with
    | .ok p => declareAll rest p
    | .error e => (p, some e)

/-! ## Sections -/

theorem extend_nil (p : Profile) : p.extend [] = p := by
  simp [extend]

theorem extend_field (p : Profile) (name spec : Value) :
    p.extend [.field name spec] = { p with fields := p.fields ++ [(name, spec)] } := by
  simp [extend, List.filterMap_cons]

theorem extend_mixin (p : Profile) (name spec : Value) :
    p.extend [.mixin name spec] = { p with mixins := p.mixins ++ [(name, spec)] } := by
  simp [extend, List.filterMap_cons]

theorem extend_filter (p : Profile) (name : Value) (f : Filter) :
    p.extend [.filter name f] = { p with filters := p.filters ++ [(name, f)] } := by
  simp [extend, List.filterMap_cons]

theorem extend_directive (p : Profile) (name : Value) (d : Descriptor) :
    p.extend [.directive name d] = { p with directives := p.directives ++ [(name, d)] } := by
  simp [extend, List.filterMap_cons]

theorem extend_child (p : Profile) (name : Value) (place : Nat) :
    p.extend [.child name place] = { p with children := p.children ++ [(name, place)] } := by
  simp [extend, List.filterMap_cons]

theorem extend_append (p : Profile) (ds es : List Declaration) :
    p.extend (ds ++ es) = (p.extend ds).extend es := by
  simp [extend, List.filterMap_append, List.append_assoc]

/-- What is put at the end of its section is listed with the others. -/
theorem listed_extend_perm (p : Profile) (ds : List Declaration) :
    (p.extend ds).listed.Perm (p.listed ++ ds) := by
  have hone : ∀ (p : Profile) (d : Declaration), (p.extend [d]).listed.Perm (p.listed ++ [d]) := by
    intro p d
    -- The declaration moves behind the sections that follow its own.
    have hmove : ∀ l r : List Declaration, r = l ++ [d] → (d :: l).Perm r := fun l r h =>
      h ▸ (List.perm_append_singleton d l).symm
    cases d <;>
      simp only [extend_field, extend_mixin, extend_filter, extend_directive, extend_child, listed,
        List.map_append, List.map_cons, List.map_nil, List.append_assoc, List.cons_append, List.nil_append,
        List.perm_append_left_iff]
    all_goals exact hmove _ _ (by simp)
  induction ds generalizing p with
  | nil => simp [extend_nil]
  | cons d rest ih =>
    rw [← List.singleton_append, extend_append, ← List.append_assoc]
    exact (ih (p.extend [d])).trans ((hone p d).append_right rest)

/-- A name is taken if there is a declaration of that name in the section. -/
theorem declares_iff : p.declares d = true ↔ ∃ e ∈ p.listed, e.Same d := by
  cases d <;> simp [declares, listed, Entries.contains_iff, Declaration.Same, Declaration.what,
    Declaration.name, Entries.keys, or_and_right, exists_or]

/-- A name is taken after declarations if it was before, or if it is the name of one of them. -/
theorem declares_extend_iff :
    (p.extend ds).declares e = true ↔ p.declares e = true ∨ ∃ d ∈ ds, d.Same e := by
  rw [declares_iff, declares_iff]
  simp only [(listed_extend_perm p ds).mem_iff, List.mem_append, or_and_right, exists_or]

/-! ## Declarations -/

/-- A name is new if it is a text that is not empty and not taken. -/
theorem newName_ok_iff {α : Type} {declared : Entries α} {what : Section} {name : Value} {s : String} :
    newName declared what name = .ok s ↔
      name = .str s ∧ s ≠ "" ∧ declared.contains name = false := by
  unfold newName
  constructor
  · intro h
    split at h
    · next t =>
      split at h
      · cases h
      · next hne =>
        split at h
        · cases h
        · next hnew =>
          obtain rfl := Except.ok.inj h
          exact ⟨rfl, hne, Bool.not_eq_true _ ▸ hnew⟩
    · cases h
  · rintro ⟨rfl, hne, hnew⟩
    dsimp only
    rw [if_neg hne, hnew]
    rfl

/-- A text that is not empty but is taken is refused. -/
theorem newName_redefined {α : Type} {declared : Entries α} {what : Section} {s : String} (hs : s ≠ "")
    (h : declared.contains (.str s) = true) :
    newName declared what (.str s) = .error (.redefined what s) := by
  rw [newName, if_neg hs, if_pos h]

/-- A name that cannot be declared is a fault of the declaration. -/
theorem kind_newName {α : Type} {declared : Entries α} {what : Section} {name : Value} {e : Fault}
    (h : newName declared what name = .error e) : e.kind = .declaration := by
  unfold newName at h
  split at h
  · split at h
    · obtain rfl := Except.error.inj h
      rfl
    · split at h
      · obtain rfl := Except.error.inj h
        rfl
      · cases h
  · obtain rfl := Except.error.inj h
    rfl

/-- A new name goes to the end of its section. -/
theorem insert_of_new {α : Type} {declared : Entries α} {what : Section} {name : Value} {s : String}
    (h : newName declared what name = .ok s) (x : α) : declared.insert name x = declared ++ [(name, x)] :=
  Entries.insert_of_absent (by simpa [Entries.contains] using (newName_ok_iff.1 h).2.2) x

theorem newFor_ok_iff {s : String} :
    p.newFor d = .ok s ↔ d.name = .str s ∧ s ≠ "" ∧ p.declares d = false := by
  cases d <;> exact newName_ok_iff

theorem newFor_redefined {s : String} (hname : d.name = .str s) (hs : s ≠ "") (h : p.declares d = true) :
    p.newFor d = .error (.redefined d.what s) := by
  cases d <;> (obtain rfl := hname; exact newName_redefined hs h)

theorem kind_newFor {e : Fault} (h : p.newFor d = .error e) : e.kind = .declaration := by
  cases d <;> exact kind_newName h

/-- A field or a mixin with a new name is put at the end of its section if its directives are a mapping, and
anything else is put there in any case. -/
theorem declare_eq (p : Profile) (d : Declaration) :
    p.declare d = (p.newFor d).bind fun s =>
      if d.isMapping then .ok (p.extend [d]) else .error (.specNotMapping d.what s) := by
  cases hnew : p.newFor d with
  | error e =>
    cases d with
    | field name spec => exact congrArg (· >>= _) hnew
    | mixin name spec => exact congrArg (· >>= _) hnew
    | filter name f => exact congrArg (· >>= _) hnew
    | directive name d => exact congrArg (· >>= _) hnew
    | child name place => exact congrArg (· >>= _) hnew
  | ok s =>
    cases d with
    | field name spec =>
      change newName p.fields .field name = _ at hnew
      rw [declare, defineField, hnew]
      cases spec with
      | dict entries =>
        refine congrArg Except.ok ?_
        rw [insert_of_new hnew, extend_field]
      | _ => rfl
    | mixin name spec =>
      change newName p.mixins .mixin name = _ at hnew
      rw [declare, defineMixin, hnew]
      cases spec with
      | dict entries =>
        refine congrArg Except.ok ?_
        rw [insert_of_new hnew, extend_mixin]
      | _ => rfl
    | filter name f =>
      change newName p.filters .filter name = _ at hnew
      rw [declare, addFilter, hnew]
      refine congrArg Except.ok ?_
      rw [insert_of_new hnew, extend_filter]
    | directive name d =>
      change newName p.directives .directive name = _ at hnew
      rw [declare, addDirective, hnew]
      refine congrArg Except.ok ?_
      rw [insert_of_new hnew, extend_directive]
    | child name place =>
      change newName p.children .child name = _ at hnew
      rw [declare, defineChild, hnew]
      refine congrArg Except.ok ?_
      rw [insert_of_new hnew, extend_child]

/-- What can be declared is sound and has a new name, and it is put at the end of its section. -/
theorem declare_ok_iff :
    p.declare d = .ok q ↔ d.Sound ∧ p.declares d = false ∧ q = p.extend [d] := by
  rw [declare_eq]
  constructor
  · intro h
    obtain ⟨s, hnew, hspec⟩ := bind_eq_ok_iff.1 h
    obtain ⟨hname, hs, hdeclares⟩ := newFor_ok_iff.1 hnew
    split at hspec
    · next hmapping => exact ⟨⟨⟨s, hname, hs⟩, hmapping⟩, hdeclares, (Except.ok.inj hspec).symm⟩
    · cases hspec
  · rintro ⟨⟨⟨s, hname, hs⟩, hmapping⟩, hdeclares, rfl⟩
    refine bind_eq_ok_iff.2 ⟨s, newFor_ok_iff.2 ⟨hname, hs, hdeclares⟩, ?_⟩
    rw [if_pos hmapping]

/-- What is sound cannot be declared if its name is taken. -/
theorem declare_redefined (hd : d.Sound) (h : p.declares d = true) :
    ∃ s, d.name = .str s ∧ p.declare d = .error (.redefined d.what s) := by
  obtain ⟨s, hname, hs⟩ := hd.named
  refine ⟨s, hname, ?_⟩
  rw [declare_eq, newFor_redefined hname hs h]
  rfl

/-- What cannot be declared is a fault of the declaration. -/
theorem kind_declare {e : Fault} (h : p.declare d = .error e) : e.kind = .declaration := by
  rw [declare_eq] at h
  cases hnew : p.newFor d with
  | error e' =>
    rw [hnew] at h
    obtain rfl := Except.error.inj h
    exact kind_newFor hnew
  | ok s =>
    rw [hnew] at h
    change (if _ then _ else _) = _ at h
    split at h
    · cases h
    · obtain rfl := Except.error.inj h
      rfl

/-! ## Several declarations -/

/-- Declarations of different names. -/
def Apart (ds : List Declaration) : Prop := ds.Pairwise fun d e => ¬d.Same e

/-- Declarations can all be added to a profile: they are sound, and their names are different and new. -/
structure Addable (p : Profile) (ds : List Declaration) : Prop where
  sound : ∀ d ∈ ds, d.Sound
  apart : Apart ds
  new : ∀ d ∈ ds, p.declares d = false

/-- Declarations can be added if the first one can, and then the others. -/
theorem addable_cons_iff :
    p.Addable (d :: ds) ↔ d.Sound ∧ p.declares d = false ∧ (p.extend [d]).Addable ds := by
  have hlater : ∀ e, (p.extend [d]).declares e = false ↔ p.declares e = false ∧ ¬d.Same e := by
    intro e
    rw [← Bool.not_eq_true, declares_extend_iff, not_or, Bool.not_eq_true]
    simp
  constructor
  · rintro ⟨hsound, hapart, hnew⟩
    rw [List.forall_mem_cons] at hsound hnew
    obtain ⟨hd, hrest⟩ := List.pairwise_cons.1 hapart
    exact ⟨hsound.1, hnew.1, hsound.2, hrest, fun e he => (hlater e).2 ⟨hnew.2 e he, hd e he⟩⟩
  · rintro ⟨hd, hfirst, hsound, hapart, hnew⟩
    refine ⟨List.forall_mem_cons.2 ⟨hd, hsound⟩, List.pairwise_cons.2 ⟨fun e he => ?_, hapart⟩,
      List.forall_mem_cons.2 ⟨hfirst, fun e he => ?_⟩⟩
    · exact ((hlater e).1 (hnew e he)).2
    · exact ((hlater e).1 (hnew e he)).1

/-- Declarations that can all be added are put at the end of their sections. -/
theorem declareAll_of_addable (h : p.Addable ds) : declareAll ds p = (p.extend ds, none) := by
  induction ds generalizing p with
  | nil => rw [declareAll, extend_nil]
  | cons d rest ih =>
    obtain ⟨hd, hnew, hrest⟩ := addable_cons_iff.1 h
    rw [declareAll, declare_ok_iff.2 ⟨hd, hnew, rfl⟩]
    dsimp only
    rw [ih hrest, ← extend_append, List.singleton_append]

/-- If not all declarations can be added, there is a fault of a declaration. -/
theorem declareAll_of_not_addable (h : ¬p.Addable ds) :
    ∃ q e, declareAll ds p = (q, some e) ∧ e.kind = .declaration := by
  induction ds generalizing p with
  | nil => exact absurd ⟨List.forall_mem_nil _, List.Pairwise.nil, List.forall_mem_nil _⟩ h
  | cons d rest ih =>
    rw [declareAll]
    cases hdeclare : p.declare d with
    | error e => exact ⟨p, e, rfl, kind_declare hdeclare⟩
    | ok q =>
      obtain ⟨hd, hnew, rfl⟩ := declare_ok_iff.1 hdeclare
      exact ih fun hrest => h (addable_cons_iff.2 ⟨hd, hnew, hrest⟩)

/-- Declarations can be added in two goes. -/
theorem declareAll_append (es : List Declaration) :
    declareAll (ds ++ es) p = andThen (declareAll es) (declareAll ds p) := by
  induction ds generalizing p with
  | nil => rfl
  | cons d rest ih =>
    rw [List.cons_append, declareAll, declareAll]
    cases p.declare d with
    | ok q => exact ih
    | error e => rfl

/-- The entries of a section are declared one after the other. -/
theorem defineAll_eq {α : Type} (define : Profile → Value → α → Except Fault Profile)
    (mk : Value → α → Declaration) (h : ∀ p name x, define p name x = p.declare (mk name x))
    (entries : List (Value × α)) :
    defineAll define entries = declareAll (entries.map fun e => mk e.1 e.2) := by
  induction entries with
  | nil => rfl
  | cons e rest ih =>
    obtain ⟨name, x⟩ := e
    funext p
    rw [List.map_cons, defineAll, declareAll, h]
    cases p.declare (mk name x) with
    | ok q => exact congrFun ih q
    | error e => rfl

end Profile
end ParamCheck
