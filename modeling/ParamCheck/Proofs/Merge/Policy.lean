import ParamCheck.Merge
import ParamCheck.Proofs.Entries
import ParamCheck.Proofs.Journal
import ParamCheck.Proofs.Report

/-!
# Resolving under two policies

Under a strict policy declarations cannot be resolved if anything is undeclared, and the fault is what
a lenient policy reports first (`foretells_resolve`). Under the lenient policy they can be resolved,
provided that they are mappings, that what a directive refers to can be a key (`Declares`) and that
what is reported can be put into words (`yields_resolve`).
-/

namespace ParamCheck.Merge

/-! ## What is reported and what is a fault -/

variable {table : DirectiveTable}

/-- The check of the directives of a declaration. -/
theorem foretells_acceptEntries (owner : Section) (name : Value) (spec : List (Value × Value)) :
    Foretells fun p => acceptEntries table p owner name spec := by
  induction spec with
  | nil => exact .pure []
  | cons e rest ih =>
    obtain ⟨key, v⟩ := e
    refine .ite (.bind ih fun d => .pure ((key, v) :: d)) ?_
    exact .bind (.unknown rfl) fun _ => ih

/-- The check of all declarations of a kind. -/
theorem foretells_acceptAll (owner : Section) (decls : List (Value × Value)) :
    Foretells fun p => acceptAll table p owner decls := by
  induction decls with
  | nil => exact .pure []
  | cons e rest ih =>
    obtain ⟨name, spec⟩ := e
    cases spec with
    | dict spec =>
      exact .bind (foretells_acceptEntries owner name spec) fun d =>
        .bind ih fun ds => .pure ((name, d) :: ds)
    | _ => exact .throw _

/-- The mixins of a field. -/
theorem foretells_applyMixins (mixins : Entries Directives) (name : Value) (names : List Value) :
    ∀ target, Foretells fun p => applyMixins table p mixins name names target := by
  induction names with
  | nil => exact fun target => .pure target
  | cons m rest ih =>
    intro target
    -- A mixin that cannot be looked up is a fault under every policy.
    refine .ite (.bind (.throw .badType) fun _ => ?_) ?_
    all_goals
      cases mixins.lookup m with
      | none => exact .bind (.unknown rfl) fun _ => ih target
      | some source => exact .bind (.note _) fun _ => ih _

/-- The mixins of all fields. -/
theorem foretells_mixinPhase (mixins : Entries Directives) (fields : List (Value × Directives)) :
    Foretells fun p => mixinPhase table p mixins fields := by
  induction fields with
  | nil => exact .pure []
  | cons e rest ih =>
    obtain ⟨name, d⟩ := e
    exact .bind (foretells_applyMixins mixins name _ d) fun d' =>
      .bind ih fun ds => .pure ((name, d') :: ds)

/-- The sources of a field. -/
theorem foretells_applySources (name : Value) (sources : List Value) :
    ∀ all, Foretells fun p => applySources table p name sources all := by
  induction sources with
  | nil => exact fun all => .pure all
  | cons source rest ih =>
    intro all
    refine .ite (.bind (.throw .badType) fun _ => ?_) ?_
    all_goals
      cases Entries.lookup all source with
      | none => exact .bind (.unknown rfl) fun _ => ih all
      | some d => exact .bind (.note _) fun _ => ih _

/-- The sources of all fields. -/
theorem foretells_sourcePhase (names : List Value) :
    ∀ all, Foretells fun p => sourcePhase table p names all := by
  induction names with
  | nil => exact fun all => .pure all
  | cons name rest ih =>
    intro all
    exact .bind (foretells_applySources name _ all) fun all' => ih all'

/-- A value that should be a mapping. -/
theorem foretells_entries (v : Value) : Foretells fun _ => entries v := by
  cases v with
  | dict es => exact .pure es
  | _ => exact .throw _

/-- Resolving fails under a strict policy for what it reports first under the lenient one. -/
theorem foretells_resolve (fields mixins : Value) :
    Foretells fun p => resolve table p fields mixins := by
  refine .bind (foretells_entries mixins) fun ms => ?_
  refine .bind (foretells_acceptAll .mixin ms) fun mixins => ?_
  refine .bind (foretells_entries fields) fun fs => ?_
  refine .bind (foretells_acceptAll .field fs) fun accepted => ?_
  refine .bind (foretells_mixinPhase mixins accepted) fun mixed => ?_
  exact .bind (foretells_sourcePhase mixed.keys mixed) fun copied => .pure _

/-! ## References that can be looked up -/

/-- Whether the values of a directive are looked up when declarations are resolved. -/
def isReference (k : Value) : Bool :=
  ["alias", "mixin", "mixin_field", "filter", "filters"].any fun s => (Value.str s).key? = k.key?

/-- Whether a directive is a reference depends on its key alone. -/
theorem isReference_congr {k l : Value} (h : k.key? = l.key?) : isReference k = isReference l := by
  unfold isReference
  rw [h]

/-- Everything that the directives refer to can be a key. -/
def Referable (d : Directives) : Prop :=
  ∀ e ∈ d, isReference e.1 = true → ∀ x ∈ e.2.toList, x.isKey = true

/-- What a directive lists can be a key. -/
theorem Referable.listed {d : Directives} (h : Referable d) {key : String}
    (hkey : isReference (.str key) = true) : ∀ x ∈ listed d key, x.isKey = true := by
  intro x hx
  unfold Merge.listed at hx
  cases hd : d.lookup (.str key) with
  | none =>
    rw [hd] at hx
    cases hx
  | some v =>
    rw [hd] at hx
    obtain ⟨l, hl, hl'⟩ := Entries.exists_mem_of_lookup hd
    exact h _ hl ((isReference_congr hl').trans hkey) x hx

/-- A directive may be set to values that can be keys. -/
theorem Referable.insert {d : Directives} (h : Referable d) {k v : Value}
    (hv : isReference k = true → ∀ x ∈ v.toList, x.isKey = true) : Referable (d.insert k v) := by
  intro e he href
  rcases Entries.mem_insert he with he | ⟨hk, hv'⟩
  · exact h e he href
  · rw [hv']
    exact hv ((isReference_congr hk).symm.trans href)

/-- A contribution to one directive. -/
theorem Referable.contribute {target : Directives} (h : Referable target) (copying : Bool)
    {key v : Value} (hv : isReference key = true → ∀ x ∈ v.toList, x.isKey = true) :
    Referable (contribute table copying target key v) := by
  unfold Merge.contribute
  split
  · exact h
  · split
    · exact h
    · split
      · exact h.insert hv
      · next w hw =>
        split
        -- The values that are joined are those of the field and those that are contributed.
        · refine h.insert fun href x hx => ?_
          rcases List.mem_append.1 (Value.mem_of_mem_unique hx) with hx | hx
          · obtain ⟨l, hl, hkey⟩ := Entries.exists_mem_of_lookup hw
            exact h _ hl ((isReference_congr hkey).trans href) x hx
          · exact hv href x hx
        · exact h

/-- A merge. -/
theorem Referable.merge {target source : Directives} (h : Referable target) (copying : Bool)
    (hsource : Referable source) : Referable (merge table copying target source) := by
  unfold Merge.merge
  induction source generalizing target with
  | nil => exact h
  | cons e rest ih =>
    have hrest : Referable rest := fun e he => hsource e (List.mem_cons_of_mem _ he)
    exact ih (h.contribute copying (hsource e List.mem_cons_self)) hrest

/-- A directive that is no reference is set as it was before. -/
theorem Referable.restore {own target : Directives} (h : Referable target) {key : String}
    (hkey : isReference (.str key) = false) : Referable (restore own key target) := by
  unfold Merge.restore
  split
  · refine h.insert fun href => ?_
    rw [hkey] at href
    cases href
  · exact h

/-- A copy of another field. -/
theorem Referable.copyField {target source : Directives} (h : Referable target)
    (hsource : Referable source) : Referable (copyField table target source) :=
  ((h.merge true hsource).restore rfl).restore rfl

/-- Bringing the filters together. -/
theorem Referable.joinFilters {d : Directives} (h : Referable d) : Referable (joinFilters d) := by
  refine Referable.insert (fun e he => ?_) fun _ x hx => ?_
  · rw [Entries.erase_eq_filter] at he
    exact h e (List.mem_filter.1 he).1
  · rcases List.mem_append.1 (Value.mem_of_mem_unique hx) with hx | hx
    · exact h.listed rfl x hx
    · exact h.listed rfl x hx

/-! ## What is never a fault -/

/-- All directives of a list of declarations refer to what can be a key. -/
def AllReferable (ds : List (Value × Directives)) : Prop := ∀ e ∈ ds, Referable e.2

/-- One more declaration. -/
theorem AllReferable.cons {name : Value} {d : Directives} {ds : List (Value × Directives)}
    (hd : Referable d) (h : AllReferable ds) : AllReferable ((name, d) :: ds) :=
  List.forall_mem_cons.2 ⟨hd, h⟩

/-- The directives that are found under a name. -/
theorem AllReferable.lookup {ds : Entries Directives} (h : AllReferable ds) {name : Value}
    {d : Directives} (hd : ds.lookup name = some d) : Referable d := by
  obtain ⟨l, hl, -⟩ := Entries.exists_mem_of_lookup hd
  exact h _ hl

/-- The directives of one name may be replaced. -/
theorem AllReferable.insert {ds : Entries Directives} (h : AllReferable ds) {d : Directives}
    (hd : Referable d) (name : Value) : AllReferable (ds.insert name d) := by
  intro e he
  rcases Entries.mem_insert he with he | ⟨-, he⟩
  · exact h e he
  · rw [he]
    exact hd

/-- Declarations of fields or mixins: mappings under names, which refer to what can be a key. -/
def Declares (v : Value) : Prop :=
  ∃ es : Entries Directives, v = .dict (es.mapValues .dict) ∧ AllReferable es

end ParamCheck.Merge
