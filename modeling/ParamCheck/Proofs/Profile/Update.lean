import ParamCheck.Proofs.Profile.Declared

/-!
# Adding the declarations of another profile

A profile takes over the declarations of another one section by section and name by name. If none of the
names is taken, all of them are put at the end of their sections. Otherwise this ends with a fault at the
first name that is, and what came before it stays (`update_stops`): nothing is taken back.
-/

namespace ParamCheck.Profile

variable {p q other : Profile} {d : Declaration}

/-- The profile with the declarations of another one at the end of its sections. -/
def append (p other : Profile) : Profile :=
  { p with
    fields := p.fields ++ other.fields
    mixins := p.mixins ++ other.mixins
    filters := p.filters ++ other.filters
    directives := p.directives ++ other.directives
    children := p.children ++ other.children }

/-- The profiles that a program can make. -/
inductive Made : Profile → Prop
  | new (name : String) : Made { name }
  | defineField {p q : Profile} {name spec : Value} (hp : Made p)
      (h : p.defineField name spec = .ok q) : Made q
  | defineMixin {p q : Profile} {name spec : Value} (hp : Made p)
      (h : p.defineMixin name spec = .ok q) : Made q
  | defineFilter {p q : Profile} {name filter : Value} (hp : Made p)
      (h : p.defineFilter name filter = .ok q) : Made q
  | defineDirective {p q : Profile} {name check : Value} {mixin field multi : Bool} (hp : Made p)
      (h : p.defineDirective name check mixin field multi = .ok q) : Made q
  | defineChild {p q : Profile} {name : Value} {place : Nat} (hp : Made p)
      (h : p.defineChild name place = .ok q) : Made q
  | update {p other : Profile} (hp : Made p) (ho : Made other) : Made (p.update other).1

/-- A profile whose declarations are sound and have different names. -/
structure Sound (p : Profile) : Prop where
  each : ∀ d ∈ p.listed, d.Sound
  apart : Apart p.listed

/-! ## Profiles that are made -/

/-- A profile stays sound when something is declared. -/
theorem Sound.declare (hp : p.Sound) (h : p.declare d = .ok q) : q.Sound := by
  obtain ⟨hd, hnew, rfl⟩ := declare_ok_iff.1 h
  have hperm := listed_extend_perm p [d]
  constructor
  · intro e he
    rcases List.mem_append.1 (hperm.mem_iff.1 he) with he | he
    · exact hp.each e he
    · exact List.mem_singleton.1 he ▸ hd
  · have happ : Apart (p.listed ++ [d]) := by
      refine List.pairwise_append.2 ⟨hp.apart, List.pairwise_singleton _ _, fun e he f hf hsame => ?_⟩
      obtain rfl := List.mem_singleton.1 hf
      rw [declares_iff.2 ⟨e, he, hsame⟩] at hnew
      cases hnew
    exact happ.perm hperm.symm fun hne hsame => hne hsame.symm

/-- A profile stays sound however many declarations are added. -/
theorem Sound.declareAll (hp : p.Sound) (ds : List Declaration) : (declareAll ds p).1.Sound := by
  induction ds generalizing p with
  | nil => exact hp
  | cons d rest ih =>
    rw [Profile.declareAll]
    cases h : p.declare d with
    | ok q => exact ih (hp.declare h)
    | error e => exact hp

/-- A filter that is declared by a callback is declared as the filter of that. -/
theorem declare_of_defineFilter {name filter : Value} (h : p.defineFilter name filter = .ok q) :
    ∃ f, p.declare (.filter name f) = .ok q := by
  obtain ⟨s, hnew, hfilter⟩ := bind_eq_ok_iff.1 h
  split at hfilter
  · next hook =>
    refine ⟨.custom hook, bind_eq_ok_iff.2 ⟨s, hnew, hfilter⟩⟩
  · cases hfilter

/-- A directive that is declared by a callback is declared by a descriptor. -/
theorem declare_of_defineDirective {name check : Value} {mixin field multi : Bool}
    (h : p.defineDirective name check mixin field multi = .ok q) :
    ∃ d, p.declare (.directive name d) = .ok q := by
  obtain ⟨s, hnew, hrest⟩ := bind_eq_ok_iff.1 h
  cases check with
  | null => exact ⟨_, bind_eq_ok_iff.2 ⟨s, hnew, hrest⟩⟩
  | callback hook => exact ⟨_, bind_eq_ok_iff.2 ⟨s, hnew, hrest⟩⟩
  | _ => cases hrest

/-- Updating a profile is declaring what the other one lists. -/
theorem update_eq (p other : Profile) : p.update other = declareAll other.listed p := by
  unfold update listed
  -- The last section is added to what all others have made.
  simp only [← List.append_assoc, declareAll_append]
  rw [defineAll_eq defineField .field fun _ _ _ => rfl, defineAll_eq defineMixin .mixin fun _ _ _ => rfl,
    defineAll_eq addFilter .filter fun _ _ _ => rfl, defineAll_eq addDirective .directive fun _ _ _ => rfl,
    defineAll_eq defineChild .child fun _ _ _ => rfl]
  rfl

/-- The profiles that a program can make are sound. -/
theorem Made.sound (h : p.Made) : p.Sound := by
  induction h with
  | new name => exact ⟨fun d hd => absurd hd List.not_mem_nil, List.Pairwise.nil⟩
  | @defineField p q name spec hp h ih => exact ih.declare (d := .field name spec) h
  | @defineMixin p q name spec hp h ih => exact ih.declare (d := .mixin name spec) h
  | defineFilter hp h ih =>
    obtain ⟨f, hf⟩ := declare_of_defineFilter h
    exact ih.declare hf
  | defineDirective hp h ih =>
    obtain ⟨d, hd⟩ := declare_of_defineDirective h
    exact ih.declare hd
  | @defineChild p q name place hp h ih => exact ih.declare (d := .child name place) h
  | @update p other hp ho ihp iho =>
    rw [update_eq]
    exact ihp.declareAll other.listed

/-! ## Adding declarations -/

/-- The declarations of a profile at the end of the sections of another one. -/
theorem extend_listed (p other : Profile) : p.extend other.listed = p.append other := by
  have hnone : ∀ {α β : Type} (l : List α), l.filterMap (fun _ => (none : Option β)) = [] := by simp
  simp [extend, append, listed, List.filterMap_map, Function.comp_def, hnone]

/-- Adding declarations ends at the first one whose name is taken. -/
theorem declareAll_stops {before after : List Declaration} (hsound : ∀ e ∈ before ++ d :: after, e.Sound)
    (hapart : Apart (before ++ d :: after)) (hbefore : ∀ e ∈ before, p.declares e = false)
    (hd : p.declares d = true) :
    ∃ s, d.name = .str s ∧
      declareAll (before ++ d :: after) p = (p.extend before, some (.redefined d.what s)) := by
  rw [List.forall_mem_append, List.forall_mem_cons] at hsound
  have htaken : (p.extend before).declares d = true := declares_extend_iff.2 (.inl hd)
  obtain ⟨s, hname, hdeclare⟩ := declare_redefined hsound.2.1 htaken
  refine ⟨s, hname, ?_⟩
  have hadds : p.Addable before := ⟨hsound.1, (List.pairwise_append.1 hapart).1, hbefore⟩
  rw [declareAll_append, declareAll_of_addable hadds]
  show declareAll (d :: after) (p.extend before) = _
  rw [Profile.declareAll, hdeclare]

/-- All declarations of another profile are added if none of their names is taken. If one is, those before
the first such name are added, and then there is a fault. -/
theorem update_stops (p : Profile) {other : Profile} (h : other.Made) :
    ((∀ d ∈ other.listed, p.declares d = false) → p.update other = (p.append other, none)) ∧
    ((∃ d ∈ other.listed, p.declares d = true) →
      ∃ before d after s, other.listed = before ++ d :: after ∧
        (∀ e ∈ before, p.declares e = false) ∧ p.declares d = true ∧
          d.name = .str s ∧ (Fault.redefined d.what s).kind = .declaration ∧
            p.update other = (p.extend before, some (.redefined d.what s))) := by
  obtain ⟨heach, hapart⟩ := h.sound
  rw [update_eq]
  constructor
  · intro hnew
    rw [declareAll_of_addable ⟨heach, hapart, hnew⟩, extend_listed]
  · rintro ⟨e, he, htaken⟩
    have hfind : (other.listed.find? p.declares).isSome = true :=
      List.find?_isSome.2 ⟨e, he, htaken⟩
    obtain ⟨d, hd⟩ := Option.isSome_iff_exists.1 hfind
    obtain ⟨hclash, before, after, hsplit, hbefore⟩ := List.find?_eq_some_iff_append.1 hd
    have hfree : ∀ e ∈ before, p.declares e = false := fun e he => by simpa using hbefore e he
    rw [hsplit] at heach hapart ⊢
    obtain ⟨s, hname, hstops⟩ := declareAll_stops heach hapart hfree hclash
    exact ⟨before, d, after, s, rfl, hfree, hclash, hname, rfl, hstops⟩

/-- A profile with one field. -/
def signIn : Profile where
  fields := [(.str "login", .dict [])]

/-- A profile with a field before that one. -/
def signUp : Profile where
  fields := [(.str "email", .dict []), (.str "login", .dict [])]

/-- Both profiles are made field by field. -/
theorem made_signIn : signIn.Made := by
  have hlogin : ({} : Profile).defineField (.str "login") (.dict []) = .ok signIn := rfl
  exact .defineField (.new "") hlogin

theorem made_signUp : signUp.Made := by
  have hemail : ({} : Profile).defineField (.str "email") (.dict []) =
      .ok { fields := [(.str "email", .dict [])] } := rfl
  have hlogin : ({ fields := [(.str "email", .dict [])] } : Profile).defineField (.str "login") (.dict []) =
      .ok signUp := rfl
  exact .defineField (.defineField (.new "") hemail) hlogin

/-- An empty profile takes over both fields, and one with the second of them takes over the first. -/
theorem update_stops_signUp :
    ({} : Profile).update signUp = (({} : Profile).append signUp, none) ∧
      ∃ before d after s, signUp.listed = before ++ d :: after ∧
        (∀ e ∈ before, signIn.declares e = false) ∧ signIn.declares d = true ∧
          d.name = .str s ∧ (Fault.redefined d.what s).kind = .declaration ∧
            signIn.update signUp = (signIn.extend before, some (.redefined d.what s)) := by
  have hfree : ∀ d ∈ signUp.listed, ({} : Profile).declares d = false := by decide
  have htaken : ∃ d ∈ signUp.listed, signIn.declares d = true := by decide
  exact ⟨(update_stops {} made_signUp).1 hfree, (update_stops signIn made_signUp).2 htaken⟩

/-- What was added before a name that is taken is not removed again. -/
theorem not_allOrNothing : ¬∀ p other : Profile, p.Made → other.Made →
    (∃ d ∈ other.listed, p.declares d = true) →
      ∃ e, e.kind = .declaration ∧ p.update other = (p, some e) := by
  intro h
  obtain ⟨e, -, hsame⟩ := h signIn signUp made_signIn made_signUp (by decide)
  have hlength : (signIn.update signUp).1.fields.length = 2 := by decide +kernel
  rw [hsame] at hlength
  have hbefore : signIn.fields.length = 1 := rfl
  exact absurd (hbefore.symm.trans hlength) (by decide)

end ParamCheck.Profile
