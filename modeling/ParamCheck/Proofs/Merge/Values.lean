import ParamCheck.Proofs.Merge.Precedence

/-!
# Values of resolved declarations

The directives of a resolved field have values that were declared somewhere, or lists that were put together
from such values. So a property that declared values have and that putting together keeps (`Merge.Kept`) is
one of all values in the end (`Merge.each_resolve`).
-/

namespace ParamCheck.Merge

variable {table : DirectiveTable} {policy : Policy} {P : Value → Prop}

/-- A property of values is kept when directives are brought together. -/
structure Kept (P : Value → Prop) : Prop where
  null : P .null
  join : ∀ {v w}, P v → P w → P (.list (Value.unique (v.toList ++ w.toList)))

/-- The values of some directives have the property. -/
def Each (P : Value → Prop) (d : Directives) : Prop := ∀ e ∈ d, P e.2

/-! ## Single fields -/

theorem Each.insert {d : Directives} (h : Each P d) {v : Value} (hv : P v) (k : Value) : Each P
    (d.insert k v) :=
  Entries.forall_insert h k hv

theorem Each.of_lookup {d : Directives} (h : Each P d) {k v : Value} (hv : d.lookup k = some v) : P v :=
  Entries.forall_lookup h hv

/-- A contribution to one directive. -/
theorem Each.contribute (hP : Kept P) {target : Directives} (h : Each P target) (copying : Bool) (key : Value)
    {v : Value} (hv : P v) : Each P (contribute table copying target key v) := by
  unfold Merge.contribute
  split
  · exact h
  · split
    · exact h
    · split
      · exact h.insert hv key
      · next w hw =>
        split
        · exact h.insert (hP.join (h.of_lookup hw) hv) key
        · exact h

theorem Each.merge (hP : Kept P) (copying : Bool) {source : Directives} (hsource : Each P source) :
    ∀ {target : Directives}, Each P target → Each P (merge table copying target source) := by
  unfold Merge.merge
  induction source with
  | nil => exact fun h => h
  | cons e rest ih =>
    obtain ⟨he, hrest⟩ := List.forall_mem_cons.1 hsource
    exact fun h => ih hrest (h.contribute hP copying e.1 he)

theorem Each.restore {own target : Directives} (hown : Each P own) (h : Each P target) (key : String) :
    Each P (restore own key target) := by
  unfold Merge.restore
  split
  · next v hv => exact h.insert (hown.of_lookup hv) (.str key)
  · exact h

theorem Each.copyField (hP : Kept P) {target source : Directives} (h : Each P target)
    (hsource : Each P source) :
    Each P (copyField table target source) :=
  h.restore (h.restore (hsource.merge hP true h) "name") "label"

/-- What a field has after its mixins. -/
theorem Each.mixedIn (hP : Kept P) {mixins : Entries Directives} (hmixins : ∀ e ∈ mixins, Each P e.2)
    {d : Directives} (h : Each P d) : Each P (mixedIn table mixins d) := by
  have hsources : ∀ source ∈ (listed d "mixin").filterMap mixins.lookup, Each P source := by
    intro source hsource
    obtain ⟨m, -, hm⟩ := List.mem_filterMap.1 hsource
    obtain ⟨l, hl, -⟩ := Entries.exists_mem_of_lookup hm
    exact hmixins _ hl
  unfold Merge.mixedIn
  generalize (listed d "mixin").filterMap mixins.lookup = sources at hsources
  induction sources generalizing d with
  | nil => exact h
  | cons source rest ih =>
    obtain ⟨hsource, hrest⟩ := List.forall_mem_cons.1 hsources
    exact ih (hsource.merge hP false h) hrest

/-- Bringing the filters together. -/
theorem Each.joinFilters (hP : Kept P) {d : Directives} (h : Each P d) : Each P (joinFilters d) := by
  have hvalue : ∀ key : String, P ((d.lookup (.str key)).getD .null) := by
    intro key
    cases hv : d.lookup (.str key) with
    | none => exact hP.null
    | some v => exact h.of_lookup hv
  refine Each.insert (fun e he => ?_) (hP.join (hvalue "filters") (hvalue "filter")) _
  rw [Entries.erase_eq_filter] at he
  exact h e (List.mem_filter.1 he).1

/-! ## All fields -/

/-- What is accepted of declarations was declared. -/
theorem each_acceptAll {owner : Section} {decls : List (Value × Value)} {ds : Entries Directives}
    {s t : Journal}
    (hdecls : ∀ e ∈ decls, ∀ spec, e.2 = .dict spec → Each P spec)
    (h : Returns (acceptAll table policy owner decls) s ds t) : ∀ e ∈ ds, Each P e.2 := by
  induction decls generalizing s ds with
  | nil =>
    rw [acceptAll, Returns.pure_iff] at h
    rw [← h.1]
    exact List.forall_mem_nil _
  | cons e rest ih =>
    obtain ⟨name, spec⟩ := e
    obtain ⟨hspec, hrest⟩ := List.forall_mem_cons.1 hdecls
    cases spec with
    | dict spec =>
      rw [acceptAll] at h
      simp only [Returns.bind_iff, Returns.pure_iff] at h
      obtain ⟨d, u, hd, ds', w, hds, rfl, rfl⟩ := h
      obtain rfl := acceptEntries_eq hd
      refine List.forall_mem_cons.2 ⟨fun e he => ?_, ih hrest hds⟩
      exact hspec spec rfl e (List.mem_filter.1 he).1
    | _ => exact absurd h Returns.throw_iff.1

/-- Copying sources into a field. -/
theorem each_applySources (hP : Kept P) {name : Value} {sources : List Value} {all all' : Entries Directives}
    {s t : Journal} (hall : ∀ e ∈ all, Each P e.2)
    (h : Returns (applySources table policy name sources all) s all' t) : ∀ e ∈ all', Each P e.2 := by
  have hlookup : ∀ {all : Entries Directives}, (∀ e ∈ all, Each P e.2) →
      ∀ {n d}, all.lookup n = some d → Each P d := by
    intro all hall n d hd
    obtain ⟨l, hl, -⟩ := Entries.exists_mem_of_lookup hd
    exact hall _ hl
  induction sources generalizing s all with
  | nil =>
    rw [applySources, Returns.pure_iff] at h
    rw [← h.1]
    exact hall
  | cons source rest ih =>
    rw [applySources] at h
    split at h
    · simp at h
    · dsimp only at h
      split at h
      · simp only [Returns.bind_iff] at h
        obtain ⟨-, u, -, hrest⟩ := h
        exact ih hall hrest
      · next d hd =>
        simp only [Returns.bind_iff] at h
        obtain ⟨-, u, -, hrest⟩ := h
        have htarget : Each P ((all.lookup name).getD []) := by
          cases hname : all.lookup name with
          | none => exact List.forall_mem_nil _
          | some target => exact hlookup hall hname
        refine ih (fun e he => ?_) hrest
        rcases Entries.mem_insert he with he | ⟨-, hvalue⟩
        · exact hall e he
        · rw [hvalue]
          exact htarget.copyField hP (hlookup hall hd)

/-- Copying the sources of all fields. -/
theorem each_sourcePhase (hP : Kept P) {names : List Value} {all all' : Entries Directives} {s t : Journal}
    (hall : ∀ e ∈ all, Each P e.2) (h : Returns (sourcePhase table policy names all) s all' t) :
    ∀ e ∈ all', Each P e.2 := by
  induction names generalizing s all with
  | nil =>
    rw [sourcePhase, Returns.pure_iff] at h
    rw [← h.1]
    exact hall
  | cons name rest ih =>
    rw [sourcePhase] at h
    simp only [Returns.bind_iff] at h
    obtain ⟨next, u, hnext, hrest⟩ := h
    exact ih (each_applySources hP hall hnext) hrest

/-- The values of resolved fields have a property that all declared values have and that is kept. -/
theorem each_resolve (hP : Kept P) {fields mixins : Entries Value} {r : Entries Directives × Entries Directives}
    {s t : Journal} (hfields : ∀ e ∈ fields, ∀ spec, e.2 = .dict spec → Each P spec)
    (hmixins : ∀ e ∈ mixins, ∀ spec, e.2 = .dict spec → Each P spec)
    (h : Returns (resolve table policy (.dict fields) (.dict mixins)) s r t) : ∀ e ∈ r.1, Each P e.2 := by
  rw [resolve] at h
  simp only [entries, Returns.bind_iff, Returns.pure_iff] at h
  obtain ⟨_, _, ⟨rfl, rfl⟩, ms, _, hms, _, _, ⟨rfl, rfl⟩, acc, _, hacc, mixed, _, hmixed,
    final, _, hfinal, rfl, -⟩ := h
  obtain rfl := mixinPhase_eq hmixed
  have hmixed : ∀ e ∈ acc.mapValues (mixedIn table ms), Each P e.2 := by
    intro e he
    obtain ⟨e', he', rfl⟩ := List.mem_map.1 he
    exact (each_acceptAll hfields hacc e' he').mixedIn hP (each_acceptAll hmixins hms)
  intro e he
  obtain ⟨e', he', rfl⟩ := List.mem_map.1 he
  exact (each_sourcePhase hP hmixed hfinal e' he').joinFilters hP

end ParamCheck.Merge
