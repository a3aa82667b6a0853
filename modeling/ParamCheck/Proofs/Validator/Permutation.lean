import ParamCheck.Proofs.Validator.Toggles

/-!
# Targets in another order

Targets without signs are selected before all other names, in the order in which they are given. If
they are given in another order, the plan selects them in that order, and nothing else about it
changes (`Validator.plan_perm`).
-/

namespace ParamCheck

namespace Validator

/-- Names that are given no sign. -/
def unsigned (ts : List String) : List (Value × Toggle) := ts.map fun t => (.str t, .declared)

/-- What targets without signs and what follows them are read as. -/
theorem mapM_ofValue_append {ts : List String} (h : ∀ t ∈ ts, (Toggle.parse t).2 = .declared)
    (rest : List Value) :
    (ts.map Value.str ++ rest).mapM Toggle.ofValue =
      (rest.mapM Toggle.ofValue).map (unsigned ts ++ ·) := by
  have hsigned : signed ts = unsigned ts :=
    List.map_congr_left fun t ht => by rw [Toggle.parse_of_declared (h t ht)]
  rw [List.mapM_append, mapM_ofValue_map, hsigned]
  cases List.mapM Toggle.ofValue rest <;> rfl

/-- Names without signs leave the signs of those that follow. -/
theorem togglesOf_append (ts : List String) (parsed : List (Value × Toggle)) :
    togglesOf (unsigned ts ++ parsed) = togglesOf parsed := by
  induction ts with
  | nil => rfl
  | cons t ts ih =>
    show togglesOf ((.str t, .declared) :: (unsigned ts ++ parsed)) = _
    rw [togglesOf, ih]
    rfl

/-- Texts are names. -/
theorem namesOf_map (names : List String) : namesOf (names.map .str) = .ok names := by
  induction names with
  | nil => rfl
  | cons name rest ih =>
    rw [List.map_cons, namesOf, ih]
    rfl

/-- Targets that are texts are the texts. -/
theorem targetTexts_map (ts : List String) : targetTexts (ts.map .str) = .ok ts := by
  induction ts with
  | nil => rfl
  | cons t rest ih =>
    rw [List.map_cons, targetTexts, ih]
    rfl

/-- There is no mapping among targets that are texts. -/
theorem mappingTarget?_map (ts : List String) : mappingTarget? (ts.map .str) = none := by
  induction ts with
  | nil => rfl
  | cons t rest ih => exact ih

/-- Targets that are texts rename nothing. -/
theorem request_map {α : Type} (ts : List String) (params : Entries α) :
    request (ts.map .str) params = .ok (params, [], ts) := by
  unfold request
  rw [mappingTarget?_map, targetTexts_map]
  rfl

/-- Different texts are not the same. -/
theorem unrepeated_map {ts : List String} (h : ts.Nodup) : Report.Unrepeated (ts.map .str) := by
  refine List.pairwise_map.2 (h.imp fun {s t} hne => ?_)
  simpa [Value.same, Value.scalarKey?] using hne.symm

/-- Names that are given in another order stand in that order before the rest. -/
theorem unique_perm {ts ts' : List String} (hperm : ts.Perm ts') (hnodup : ts.Nodup)
    (rest : List Value) :
    ∃ tail, Value.unique (ts.map Value.str ++ rest) = ts.map Value.str ++ tail ∧
      Value.unique (ts'.map Value.str ++ rest) = ts'.map Value.str ++ tail := by
  have hunique : ∀ {names : List String}, names.Nodup →
      Value.unique (names.map Value.str ++ rest) = Report.addAll (names.map .str) rest := by
    intro names hnames
    have hnew : Report.addAll [] (names.map .str) = names.map .str :=
      Report.addAll_of_unrepeated (unrepeated_map hnames)
    rw [← Report.addAll_nil, Report.addAll_append, hnew]
  rw [hunique hnodup, hunique (hperm.nodup_iff.1 hnodup)]
  exact Report.exists_addAll_eq_append rest fun m => (hperm.map Value.str).any_eq

/-- What is planned for targets without signs: they are selected first, then what is in the queue,
and then the fields that have aliased parameters. -/
theorem plan_names_iff {v : Validator} {ts : List String} (hts : ts ≠ [])
    (hunsigned : ∀ t ∈ ts, (Toggle.parse t).2 = .declared) {run run' : Run} {plan : Plan}
    {params : Entries (Value × Value)} {moved : Entries Value}
    (hmoved : v.aliases.move (tagged run.params) = (params, moved)) :
    Returns (v.plan (ts.map .str)) run plan run' ↔
      ∃ queued selected,
        v.queue.mapM Toggle.ofValue = .ok queued ∧
        Value.unique (ts.map .str ++ (queued.map (·.1) ++ moved.keys)) = selected.map .str ∧
        plan =
          { selected
            toggles := togglesOf queued
            sources := Entries.overlay [] moved
            origins := params.mapValues (·.1)
            hasParams := !params.isEmpty } ∧
        run' =
          { run with
            params := params.mapValues (·.2)
            notes := run.notes ++ (moved.map fun (field, source) => .resolvedAlias source field) ++
              [.validating selected] } := by
  have hnames : ∀ queued : List (Value × Toggle),
      (unsigned ts ++ queued).map (·.1) = ts.map .str ++ queued.map (·.1) := by
    intro queued
    rw [List.map_append, unsigned, List.map_map]
    rfl
  have hsome : ∀ queued : List (Value × Toggle),
      (!(ts.map Value.str ++ queued.map (·.1)).isEmpty) = true := by
    intro queued
    simp [hts]
  change v.aliases.move (run.params.map fun (key, value) => (key, (key, value))) = _ at hmoved
  rw [Validator.plan]
  simp only [Returns.bind_iff, Returns.get_iff, Returns.liftM_iff, Returns.mapM_liftM_iff,
    Returns.modify_iff, Returns.pure_iff, request_map]
  constructor
  · rintro ⟨_, _, ⟨rfl, rfl⟩, _, _, ⟨hrequest, rfl⟩, parsed, _, ⟨hparsed, rfl⟩, _, _, rfl, selected,
      _, ⟨hselected, rfl⟩, _, _, rfl, rfl, rfl⟩
    obtain rfl := Except.ok.inj hrequest
    dsimp only at hparsed hselected ⊢
    rw [mapM_ofValue_append hunsigned] at hparsed
    obtain ⟨queued, hqueued, rfl⟩ := map_eq_ok_iff.1 hparsed
    rw [hnames, if_pos (hsome queued), List.append_assoc, hmoved] at hselected
    refine ⟨queued, selected, hqueued, namesOf_ok hselected, ?_, ?_⟩
    · rw [togglesOf_append, hmoved]
    · rw [hmoved]
  · rintro ⟨queued, selected, hqueued, hselected, rfl, rfl⟩
    refine ⟨_, _, ⟨rfl, rfl⟩, _, _, ⟨rfl, rfl⟩, unsigned ts ++ queued, _, ⟨?_, rfl⟩, (), _, rfl,
      selected, _, ⟨?_, rfl⟩, (), _, rfl, ?_, ?_⟩
    · rw [mapM_ofValue_append hunsigned, hqueued]
      rfl
    · dsimp only
      rw [hnames, if_pos (hsome queued), List.append_assoc, hmoved]
      exact (congrArg namesOf hselected).trans (namesOf_map selected)
    · dsimp only
      rw [togglesOf_append, hmoved]
    · dsimp only
      rw [hmoved]

/-- Targets without signs that are given in another order are selected in that order, before the
same names as before, and nothing else about the run changes but what is told of it. -/
theorem plan_perm {v : Validator} {ts ts' : List String} (hperm : ts.Perm ts') (hnodup : ts.Nodup)
    (hunsigned : ∀ t ∈ ts, (Toggle.parse t).2 = .declared) {run run₀ : Run} {plan : Plan}
    (h : Returns (v.plan (ts.map .str)) run plan run₀) :
    ∃ rest notes, plan.selected = ts ++ rest ∧
      Returns (v.plan (ts'.map .str)) run { plan with selected := ts' ++ rest }
        { run₀ with notes } := by
  by_cases hts : ts = []
  · subst hts
    obtain rfl := hperm.nil_eq
    exact ⟨plan.selected, run₀.notes, rfl, h⟩
  have hts' : ts' ≠ [] := fun hnil => hts (hnil ▸ hperm).eq_nil
  have hunsigned' : ∀ t ∈ ts', (Toggle.parse t).2 = .declared :=
    fun t ht => hunsigned t (hperm.mem_iff.2 ht)
  rcases hmoved : v.aliases.move (tagged run.params) with ⟨params, moved⟩
  obtain ⟨queued, selected, hqueued, hselected, rfl, rfl⟩ :=
    (plan_names_iff hts hunsigned hmoved).1 h
  obtain ⟨tail, htail, htail'⟩ := unique_perm hperm hnodup (queued.map (·.1) ++ moved.keys)
  -- What follows the targets are names as well.
  obtain ⟨first, rest, rfl, hfirst, rfl⟩ := List.map_eq_append_iff.1 (hselected.symm.trans htail)
  obtain rfl := (List.map_inj_right fun _ _ => Value.str.inj).1 hfirst
  have hselected' : Value.unique (ts'.map .str ++ (queued.map (·.1) ++ moved.keys)) =
      (ts' ++ rest).map .str := by
    rw [htail', List.map_append]
  exact ⟨rest, _, rfl,
    (plan_names_iff hts' hunsigned' hmoved).2 ⟨queued, ts' ++ rest, hqueued, hselected', rfl, rfl⟩⟩

end Validator

end ParamCheck
