import ParamCheck.Proofs.Merge.Precedence

/-!
# Resolving in another order

Declarations in which everything that is referred to is known are resolved under every policy
(`Known.settles_resolve`). The order of the fields makes no difference to the directives of a field, as long as
no source that copies sources itself changes sides with it (`resolve_perm`): a source is copied as it stands, so
that what it copies is passed on only if it is declared earlier (`not_orderFree`).
-/

namespace ParamCheck.Merge

variable {table : DirectiveTable} (policy : Policy)

/-! ## Declarations that are resolved -/

/-- Everything that the declarations refer to is known. -/
structure Known (table : DirectiveTable) (fields mixins : Entries Directives) : Prop where
  eligible_field : ∀ e ∈ fields, ∀ d ∈ e.2, eligible table .field d.1 = true
  eligible_mixin : ∀ e ∈ mixins, ∀ d ∈ e.2, eligible table .mixin d.1 = true
  mixin : ∀ e ∈ fields, ∀ m ∈ listed e.2 "mixin", m.isKey = true ∧ mixins.contains m = true
  source : ∀ e ∈ fields, ∀ n ∈ listed e.2 "mixin_field", n.isKey = true ∧ fields.contains n = true

/-- Directives that may stand in a declaration are accepted. -/
theorem settles_acceptEntries {owner : Section} {spec : Directives}
    (h : ∀ d ∈ spec, eligible table owner d.1 = true) (name : Value) :
    ∀ s, Settles (acceptEntries table policy owner name spec) s := by
  induction spec with
  | nil => exact fun s => .pure [] s
  | cons e rest ih =>
    intro s
    obtain ⟨hfirst, hrest⟩ := List.forall_mem_cons.1 h
    rw [acceptEntries, if_pos hfirst]
    obtain ⟨d, t, hd⟩ := ih hrest s
    exact Settles.bind_iff.2 ⟨d, t, hd, .pure _ t⟩

/-- Declarations whose directives may stand in them are accepted. -/
theorem settles_acceptAll {owner : Section} {decls : Entries Directives}
    (h : ∀ e ∈ decls, ∀ d ∈ e.2, eligible table owner d.1 = true) :
    ∀ s, Settles (acceptAll table policy owner (decls.mapValues .dict)) s := by
  induction decls with
  | nil => exact fun s => .pure [] s
  | cons e rest ih =>
    intro s
    obtain ⟨hfirst, hrest⟩ := List.forall_mem_cons.1 h
    obtain ⟨d, t, hd⟩ := settles_acceptEntries policy hfirst e.1 s
    obtain ⟨ds, u, hds⟩ := ih hrest t
    show Settles (acceptAll table policy owner ((e.1, .dict e.2) :: Entries.mapValues .dict rest)) s
    rw [acceptAll]
    exact Settles.bind_iff.2 ⟨d, t, hd, Settles.bind_iff.2 ⟨ds, u, hds, .pure _ u⟩⟩

/-- Mixins that exist are applied. -/
theorem settles_applyMixins {mixins : Entries Directives} {names : List Value}
    (h : ∀ m ∈ names, m.isKey = true ∧ mixins.contains m = true) (name : Value) :
    ∀ target s, Settles (applyMixins table policy mixins name names target) s := by
  induction names with
  | nil => exact fun target s => .pure target s
  | cons m rest ih =>
    intro target s
    obtain ⟨⟨hkey, hmixin⟩, hrest⟩ := List.forall_mem_cons.1 h
    obtain ⟨source, hsource⟩ := Option.isSome_iff_exists.1 hmixin
    rw [applyMixins, hkey, hsource]
    exact Settles.bind_iff.2 ⟨(), _, rfl, ih hrest _ _⟩

/-- Mixins that exist are applied to all fields. -/
theorem settles_mixinPhase {mixins fields : Entries Directives}
    (h : ∀ e ∈ fields, ∀ m ∈ listed e.2 "mixin", m.isKey = true ∧ mixins.contains m = true) :
    ∀ s, Settles (mixinPhase table policy mixins fields) s := by
  induction fields with
  | nil => exact fun s => .pure [] s
  | cons e rest ih =>
    intro s
    obtain ⟨hfirst, hrest⟩ := List.forall_mem_cons.1 h
    obtain ⟨d, t, hd⟩ := settles_applyMixins policy hfirst e.1 e.2 s
    obtain ⟨ds, u, hds⟩ := ih hrest t
    rw [mixinPhase]
    exact Settles.bind_iff.2 ⟨d, t, hd, Settles.bind_iff.2 ⟨ds, u, hds, .pure _ u⟩⟩

/-- Sources that exist are copied. -/
theorem settles_applySources {name : Value} {sources : List Value} :
    ∀ {all : Entries Directives}, all.contains name = true →
      (∀ n ∈ sources, n.isKey = true ∧ all.contains n = true) →
        ∀ s, Settles (applySources table policy name sources all) s := by
  induction sources with
  | nil => exact fun _ _ s => .pure _ s
  | cons n rest ih =>
    intro all hname h s
    obtain ⟨⟨hkey, hsource⟩, hrest⟩ := List.forall_mem_cons.1 h
    obtain ⟨d, hd⟩ := Option.isSome_iff_exists.1 hsource
    have hkept : ∀ v m, all.contains m = true → (all.insert name v).contains m = true := by
      intro v m hm
      unfold Entries.contains at hm ⊢
      rw [Entries.lookup_insert]
      split
      · rfl
      · exact hm
    rw [applySources, hkey, hd]
    refine Settles.bind_iff.2 ⟨(), _, rfl, ih (hkept _ name hname) (fun m hm => ?_) _⟩
    exact ⟨(hrest m hm).1, hkept _ m (hrest m hm).2⟩

/-- Sources that exist are copied for all fields. -/
theorem settles_sourcePhase {names : List Value} (hnames : DistinctNames names) :
    ∀ {all : Entries Directives}, (∀ n ∈ names, all.contains n = true) →
      (∀ n ∈ names, ∀ m ∈ listed ((all.lookup n).getD []) "mixin_field",
        m.isKey = true ∧ all.contains m = true) →
        ∀ s, Settles (sourcePhase table policy names all) s := by
  induction names with
  | nil => exact fun _ _ s => .pure _ s
  | cons first rest ih =>
    intro all hall hsources s
    obtain ⟨hnew, hrest⟩ := List.pairwise_cons.1 hnames
    obtain ⟨hfirst, hothers⟩ := List.forall_mem_cons.1 hall
    obtain ⟨d, hd⟩ := Option.isSome_iff_exists.1 hfirst
    obtain ⟨all₁, t, hturn⟩ := settles_applySources policy hfirst
      (hsources first List.mem_cons_self) s
    have hkeys := (applySources_eq hd hturn).1
    have hsame : ∀ n, all.contains n = true → all₁.contains n = true := by
      intro n hn
      rw [Entries.contains_iff, hkeys, ← Entries.contains_iff]
      exact hn
    rw [sourcePhase]
    refine Settles.bind_iff.2 ⟨all₁, t, hturn, ih hrest (fun n hn => hsame n (hothers n hn)) ?_ t⟩
    intro n hn m hm
    rw [lookup_applySources_of_ne (hnew n hn) hturn] at hm
    obtain ⟨hkey, hm'⟩ := hsources n (List.mem_cons_of_mem _ hn) m hm
    exact ⟨hkey, hsame m hm'⟩

/-- All of a declaration is accepted if all of it may stand there. -/
theorem accepted_of_eligible {owner : Section} {spec : Directives}
    (h : ∀ d ∈ spec, eligible table owner d.1 = true) : accepted table owner spec = spec :=
  List.filter_eq_self.2 h

/-- All declarations of a kind are accepted if all of them may stand there. -/
theorem mapValues_accepted {owner : Section} {decls : Entries Directives}
    (h : ∀ e ∈ decls, ∀ d ∈ e.2, eligible table owner d.1 = true) :
    decls.mapValues (accepted table owner) = decls := by
  calc decls.map (fun e => (e.1, accepted table owner e.2)) = decls.map fun e => e :=
        List.map_congr_left fun e he => congrArg (e.1, ·) (accepted_of_eligible (h e he))
    _ = decls := List.map_id' _

/-- Declarations in which everything is known are resolved. -/
theorem Known.settles_resolve {fields mixins : Entries Directives} (h : Known table fields mixins)
    (hsource : eligible table .mixin (.str "mixin_field") = false) (hfields : fields.Distinct) (s : Journal) :
    Settles (resolve table policy (.dict (fields.mapValues .dict)) (.dict (mixins.mapValues .dict))) s := by
  obtain ⟨ms, t, hms⟩ := settles_acceptAll policy h.eligible_mixin s
  obtain ⟨acc, u, hacc⟩ := settles_acceptAll policy h.eligible_field t
  obtain rfl : ms = mixins := (acceptAll_eq hms).trans (mapValues_accepted h.eligible_mixin)
  obtain rfl : acc = fields := (acceptAll_eq hacc).trans (mapValues_accepted h.eligible_field)
  obtain ⟨mixed, w, hmixed⟩ := settles_mixinPhase policy h.mixin u
  obtain rfl := mixinPhase_eq hmixed
  have hkeys : (acc.mapValues (mixedIn table ms)).keys = acc.keys := Entries.keys_mapValues _ _
  have hnames : DistinctNames (acc.mapValues (mixedIn table ms)).keys := by
    rw [hkeys]
    exact Entries.distinct_iff_keys.1 hfields
  have hcontains : ∀ n, acc.contains n = true → (acc.mapValues (mixedIn table ms)).contains n = true := by
    intro n hn
    rw [Entries.contains_iff, hkeys, ← Entries.contains_iff]
    exact hn
  -- Mixins add no sources, so that a field has those of its declaration at its turn.
  have hsources : ∀ n ∈ (acc.mapValues (mixedIn table ms)).keys,
      ∀ m ∈ listed (((acc.mapValues (mixedIn table ms)).lookup n).getD []) "mixin_field",
        m.isKey = true ∧ (acc.mapValues (mixedIn table ms)).contains m = true := by
    intro n hn m hm
    rw [hkeys] at hn
    obtain ⟨e, he, rfl⟩ := List.mem_map.1 hn
    have hlisted := lookup_mixedIn_of_not_eligible hsource ms e.2
    rw [mapValues_accepted h.eligible_mixin] at hlisted
    rw [Entries.lookup_mapValues, hfields.lookup_of_mem he, Option.map_some, Option.getD_some, listed,
      hlisted] at hm
    obtain ⟨hkey, hm'⟩ := h.source e he m hm
    exact ⟨hkey, hcontains m hm'⟩
  obtain ⟨final, x, hfinal⟩ := settles_sourcePhase policy hnames
    (fun n hn => Entries.contains_iff.2 ⟨n, hn, rfl⟩) hsources w
  refine ⟨(final.mapValues joinFilters, ms), x, ?_⟩
  rw [resolve]
  simp only [entries, Returns.bind_iff, Returns.pure_iff]
  exact ⟨_, _, ⟨rfl, rfl⟩, _, t, hms, _, _, ⟨rfl, rfl⟩, _, u, hacc, _, w, hmixed, _, x, hfinal, rfl, rfl⟩

/-! ## Fields in another order -/

/-- Whether the first field is declared before the second. -/
def before (fields : Entries Directives) (m n : Value) : Bool :=
  Entries.contains (fields.takeWhile fun e => e.1.key? ≠ n.key?) m

/-- In two orders of the fields every field stands on the same side of those of its sources that have sources
themselves. -/
def SameSides (fields fields' : Entries Directives) : Prop :=
  ∀ e ∈ fields, ∀ f ∈ fields, e.1.key? ≠ f.1.key? →
    (∃ n ∈ listed e.2 "mixin_field", n.key? = f.1.key?) → listed f.2 "mixin_field" ≠ [] →
      before fields f.1 e.1 = before fields' f.1 e.1

instance (fields fields' : Entries Directives) : Decidable (SameSides fields fields') :=
  inferInstanceAs (Decidable (∀ e ∈ fields, ∀ f ∈ fields, _))

/-- The fields before one are those that stand before it. -/
theorem before_append {earlier later : Entries Directives} {name : Value} {spec : Directives}
    (h : (earlier ++ (name, spec) :: later).Distinct) (m : Value) :
    before (earlier ++ (name, spec) :: later) m name = earlier.contains m := by
  have hearlier : ∀ e ∈ earlier, decide (e.1.key? ≠ name.key?) = true := fun e he =>
    decide_eq_true ((List.pairwise_append.1 h).2.2 e he (name, spec) List.mem_cons_self)
  unfold before
  rw [List.takeWhile_append_of_pos hearlier, List.takeWhile_cons_of_neg (by simp), List.append_nil]

section

variable {fields fields' mixins merged merged' : Entries Directives}

/-- A field without sources is complete after its mixins, at any time. -/
theorem Merged.stateAt_eq (h : Merged table fields mixins merged) {earlier later : Entries Directives}
    (hsplit : fields = earlier ++ later) {n : Value} {spec : Directives} (hn : fields.lookup n = some spec)
    (hsources : earlier.contains n = true → listed (accepted table .field spec) "mixin_field" = []) :
    stateAt table mixins merged earlier later n = some (afterMixins table mixins spec) := by
  unfold stateAt
  split
  · next hearlier =>
    obtain ⟨l, hl, hkey⟩ := Entries.exists_mem_of_lookup hn
    obtain ⟨a, b, hab⟩ := List.append_of_mem hl
    rw [← Entries.lookup_congr hkey, h a b l spec hab, hsources hearlier]
    rfl
  · next hearlier =>
    have hnone : earlier.lookup n = none := by simpa [Entries.contains] using hearlier
    rw [hsplit, Entries.lookup_append, hnone, Option.none_or] at hn
    rw [hn]
    rfl

/-- What is known does not depend on the order of the fields. -/
theorem Known.perm (h : Known table fields mixins) (hfields : fields.Distinct)
    (hperm : fields.Perm fields') : Known table fields' mixins where
  eligible_field := fun e he => h.eligible_field e (hperm.mem_iff.2 he)
  eligible_mixin := h.eligible_mixin
  mixin := fun e he => h.mixin e (hperm.mem_iff.2 he)
  source := fun e he n hn => by
    obtain ⟨hkey, hfound⟩ := h.source e (hperm.mem_iff.2 he) n hn
    unfold Entries.contains at hfound ⊢
    rw [hfields.lookup_perm hperm n]
    exact ⟨hkey, hfound⟩

/-- Every field is merged alike in two orders in which it stands on the same side of its sources. -/
theorem Merged.lookup_eq (h : Merged table fields mixins merged) (h' : Merged table fields' mixins merged')
    (hfields : fields.Distinct) (hperm : fields.Perm fields') (hsides : SameSides fields fields')
    (hknown : Known table fields mixins) :
    ∀ (earlier later : Entries Directives) (name : Value) (spec : Directives),
      fields = earlier ++ (name, spec) :: later → merged.lookup name = merged'.lookup name := by
  intro earlier
  induction hlength : earlier.length using Nat.strongRecOn generalizing earlier with
  | ind length ih =>
    subst hlength
    intro later name spec hsplit
    have hmem : (name, spec) ∈ fields := hsplit ▸ List.mem_append_right _ List.mem_cons_self
    obtain ⟨earlier', later', hsplit'⟩ := List.append_of_mem (hperm.mem_iff.1 hmem)
    rw [h earlier later name spec hsplit, h' earlier' later' name spec hsplit',
      accepted_of_eligible (hknown.eligible_field _ hmem)]
    refine congrArg some (copySources_congr (fun n hn hne => ?_) _)
    obtain ⟨spec', hspec'⟩ := Option.isSome_iff_exists.1 (hknown.source _ hmem n hn).2
    obtain ⟨l', hl', hkey'⟩ := Entries.exists_mem_of_lookup hspec'
    have haccepted : accepted table .field spec' = spec' := accepted_of_eligible (hknown.eligible_field _ hl')
    have hspec'' : fields'.lookup n = some spec' := (hfields.lookup_perm hperm n).trans hspec'
    by_cases hnone : listed spec' "mixin_field" = []
    · rw [← haccepted] at hnone
      rw [h.stateAt_eq hsplit hspec' fun _ => hnone, h'.stateAt_eq hsplit' hspec'' fun _ => hnone]
    · -- A source with sources is complete in both orders, or in none.
      have hside := hsides _ hmem _ hl' (hkey' ▸ hne) ⟨n, hn, hkey'.symm⟩ hnone
      rw [hsplit, hsplit', before_append (hsplit ▸ hfields), before_append (hsplit' ▸ hfields.perm hperm),
        Entries.contains, Entries.contains, Entries.lookup_congr hkey', Entries.lookup_congr hkey',
        ← Entries.contains, ← Entries.contains] at hside
      cases hearlier : Entries.contains earlier n with
      | false =>
        have hlater : ¬Entries.contains earlier n = true := by rw [hearlier]; exact Bool.false_ne_true
        have hlater' : ¬Entries.contains earlier' n = true := hside ▸ hlater
        rw [h.stateAt_eq hsplit hspec' fun hn => absurd hn hlater,
          h'.stateAt_eq hsplit' hspec'' fun hn => absurd hn hlater']
      | true =>
        rw [stateAt, stateAt, if_pos hearlier, if_pos (hside ▸ hearlier)]
        obtain ⟨l, hl, hkey⟩ := Entries.contains_iff.1 hearlier
        obtain ⟨e, he, rfl⟩ := List.mem_map.1 hl
        obtain ⟨a, b, rfl⟩ := List.append_of_mem he
        rw [← Entries.lookup_congr hkey merged, ← Entries.lookup_congr hkey merged']
        refine ih a.length ?_ a rfl (b ++ (name, spec) :: later) e.1 e.2 ?_
        · rw [List.length_append, List.length_cons]
          omega
        · rw [hsplit, List.append_assoc, List.cons_append]

end

/-- Declarations in which everything is known are resolved in both of two orders of the fields, and every field
has the same directives, if it stands on the same side of those of its sources that have sources themselves. -/
theorem resolve_perm {fields fields' mixins : Entries Directives}
    (hsource : eligible table .mixin (.str "mixin_field") = false) (hfields : fields.Distinct)
    (hknown : Known table fields mixins) (hperm : fields.Perm fields') (hsides : SameSides fields fields')
    (policy : Policy) (s : Journal) :
    ∃ resolved resolved' mixins' mixins'' t t',
      (resolve table policy (.dict (fields.mapValues .dict)) (.dict (mixins.mapValues .dict))).run s =
        (.ok (resolved, mixins'), t) ∧
      (resolve table policy (.dict (fields'.mapValues .dict)) (.dict (mixins.mapValues .dict))).run s =
        (.ok (resolved', mixins''), t') ∧
      resolved.keys.Perm resolved'.keys ∧ ∀ n, resolved.lookup n = resolved'.lookup n := by
  obtain ⟨⟨resolved, mixins'⟩, t, h⟩ := hknown.settles_resolve policy hsource hfields s
  obtain ⟨⟨resolved', mixins''⟩, t', h'⟩ :=
    (hknown.perm hfields hperm).settles_resolve policy hsource (hfields.perm hperm) s
  refine ⟨resolved, resolved', mixins', mixins'', t, t', h, h', ?_⟩
  obtain ⟨merged, rfl, hkeys, hmerged⟩ := resolve_eq hsource hfields h
  obtain ⟨merged', rfl, hkeys', hmerged'⟩ := resolve_eq hsource (hfields.perm hperm) h'
  constructor
  · rw [Entries.keys_mapValues, Entries.keys_mapValues, hkeys, hkeys']
    exact hperm.map _
  intro n
  rw [Entries.lookup_mapValues, Entries.lookup_mapValues]
  congr 1
  by_cases hn : merged.contains n = true
  · obtain ⟨m, hm, hkey⟩ := Entries.contains_iff.1 hn
    rw [hkeys] at hm
    obtain ⟨e, he, rfl⟩ := List.mem_map.1 hm
    obtain ⟨earlier, later, hsplit⟩ := List.append_of_mem he
    rw [← Entries.lookup_congr hkey, ← Entries.lookup_congr hkey]
    exact hmerged.lookup_eq hmerged' hfields hperm hsides hknown earlier later e.1 e.2 hsplit
  · have hn' : ¬merged'.contains n = true := by
      rw [Entries.contains_iff, hkeys', ← Entries.contains_iff, Entries.contains,
        hfields.lookup_perm hperm n, ← Entries.contains, Entries.contains_iff, ← hkeys,
        ← Entries.contains_iff]
      exact hn
    rw [Entries.contains, Bool.not_eq_true, Option.isSome_eq_false_iff, Option.isNone_iff_eq_none] at hn hn'
    rw [hn, hn']

/-- A field that copies a field that copies a third one. -/
def chain : Entries Directives :=
  [(.str "b", [(.str "mixin_field", .str "c")]), (.str "a", [(.str "mixin_field", .str "b")]),
    (.str "c", [(.str "required", .bool true)])]

/-- Everything in the chain is known. -/
theorem known_chain : Known .builtin chain [] := by
  constructor <;> decide

/-- The end of a chain may change sides, since it has no sources: the field that is copied through is complete
in time in both orders. -/
theorem resolve_perm_chain :
    SameSides chain [chain[2], chain[0], chain[1]] ∧ ∃ resolved resolved' mixins' mixins'' t t',
      (resolve .builtin {} (.dict (chain.mapValues .dict)) (.dict [])).run {} =
        (.ok (resolved, mixins'), t) ∧
      (resolve .builtin {} (.dict (Entries.mapValues .dict [chain[2], chain[0], chain[1]]))
        (.dict [])).run {} = (.ok (resolved', mixins''), t') ∧
      resolved.lookup (.str "a") = resolved'.lookup (.str "a") ∧
      ∃ d, resolved.lookup (.str "a") = some d ∧ d.lookup (.str "required") = some (.bool true) := by
  have hperm : chain.Perm [chain[2], chain[0], chain[1]] :=
    (List.Perm.cons _ (List.Perm.swap _ _ _)).trans (List.Perm.swap _ _ _)
  have hsides : SameSides chain [chain[2], chain[0], chain[1]] := by decide
  obtain ⟨resolved, resolved', mixins', mixins'', t, t', h, h', -, hsame⟩ :=
    resolve_perm (by decide) (by decide) known_chain hperm hsides {} {}
  obtain ⟨rfl, -⟩ := Prod.mk.inj (Except.ok.inj (congrArg Prod.fst h))
  exact ⟨hsides, _, resolved', mixins', mixins'', t, t', h, h', hsame (.str "a"), _, rfl, rfl⟩

/-- The order of the fields makes no difference to any directive of a field if everything is known. -/
def OrderFree : Prop :=
  ∀ {fields fields' mixins : Entries Directives}, fields.Distinct → Known .builtin fields mixins →
    fields.Perm fields' →
    ∀ {policy : Policy} {r r' : Entries Directives × Entries Directives} {s t t' : Journal},
      (resolve .builtin policy (.dict (fields.mapValues .dict)) (.dict (mixins.mapValues .dict))).run s =
        (.ok r, t) →
      (resolve .builtin policy (.dict (fields'.mapValues .dict)) (.dict (mixins.mapValues .dict))).run s =
        (.ok r', t') →
      ∀ n k, (r.1.lookup n).bind (·.lookup k) = (r'.1.lookup n).bind (·.lookup k)

/-- If the field in the middle of a chain comes after the one that copies it, nothing is passed on. -/
theorem not_orderFree : ¬OrderFree := by
  intro h
  have hperm : chain.Perm [chain[1], chain[0], chain[2]] := List.Perm.swap _ _ _
  have hsame := @h _ _ _ (by decide) known_chain hperm {} _ _ {} _ _ rfl rfl (.str "a") (.str "required")
  cases hsame

end ParamCheck.Merge
