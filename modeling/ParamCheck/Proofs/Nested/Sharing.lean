import ParamCheck.Proofs.Nested.Assembly
import ParamCheck.Proofs.Nested.Unentangled

/-!
# Links that fit the parameters

The links that are known fit the parameters if each is the parameter of its key without the numbers
(`Sharing.Fits`). Linking more containers keeps it so (`Fits.enroll`), and so do building, whatever becomes
of the parameters (`Fits.build`), and flattening (`Fits.flatten`). With links that fit, and no container on
the way of a key, building goes as it does without links (`Sharing.build_of_unentangled`). Data that have been
flattened are built of such keys (`DelimiterOptions.unentangled_flatten`).
-/

namespace ParamCheck

open Linked (Within Grown)

namespace DelimiterOptions

/-- A leaf under the key of its path. -/
def keyed {α : Type} (o : DelimiterOptions) (l : Path × α) : Except Fault (Value × α) := do
  return (.str (← o.spell l.1), l.2)

/-- Flattening keys the leaves one by one. -/
theorem flatten_eq_ok_iff {o : DelimiterOptions} {entries flat : Entries Value} :
    o.flatten (.dict entries) = .ok flat ↔ (Value.dict entries).keysWritable = true ∧
      ((Value.leaves.entryLeaves entries).mapM o.keyed).map Entries.ofPairs = .ok flat := by
  unfold flatten
  cases hkeys : (Value.dict entries).keysWritable with
  | false => simp [throw, throwThe, MonadExceptOf.throw]
  | true =>
    cases hd : o.delimiters? with
    | none =>
      simp only [true_and]
      rw [← map_eq_pure_bind]
      rfl
    | some d =>
      have hkeyed : ∀ l : Path × Value, o.keyed l = pure (.str (String.ofList (d.spell l.1)), l.2) := by
        intro l
        unfold keyed spell
        rw [hd]
        rfl
      have hspelt := List.mapM_pure (m := Except Fault) (l := Value.leaves.entryLeaves entries)
        (f := fun l => (Value.str (String.ofList (d.spell l.1)), l.2))
      rw [funext hkeyed, hspelt]
      simp only [true_and]
      rfl

/-- Leaves are put under the same keys whatever is done to their values. -/
theorem mapM_keyed {α β : Type} {o : DelimiterOptions} (f : α → β) {ls : List (Path × α)} :
    ∀ {pairs : List (Value × α)}, ls.mapM o.keyed = .ok pairs →
      (ls.map fun l => (l.1, f l.2)).mapM o.keyed = .ok (Entries.mapValues f pairs) ∧
        ∀ e ∈ pairs, ∃ l ∈ ls, l.2 = e.2 := by
  induction ls with
  | nil =>
    intro pairs h
    obtain rfl := Except.ok.inj h
    exact ⟨rfl, nofun⟩
  | cons l rest ih =>
    intro pairs h
    rw [List.mapM_cons] at h
    obtain ⟨e, he, h⟩ := bind_eq_ok_iff.1 h
    obtain ⟨es, hes, h⟩ := bind_eq_ok_iff.1 h
    obtain rfl := Except.ok.inj h
    obtain ⟨key, hkey, hpair⟩ := bind_eq_ok_iff.1 he
    obtain rfl := Except.ok.inj hpair
    obtain ⟨hrest, hmem⟩ := ih hes
    constructor
    · have hfirst : o.keyed (l.1, f l.2) = .ok (.str key, f l.2) := by
        unfold keyed
        rw [hkey]
        rfl
      rw [List.map_cons, List.mapM_cons, hfirst, hrest]
      rfl
    · intro e he
      rcases List.mem_cons.1 he with rfl | he
      · exact ⟨l, List.mem_cons_self, rfl⟩
      · obtain ⟨m, hm, hvalue⟩ := hmem e he
        exact ⟨m, List.mem_cons_of_mem _ hm, hvalue⟩

end DelimiterOptions

namespace Sharing

/-- The links are those of the parameters, and the next number is new. -/
structure Fits (s : Sharing) (params : Entries Value) : Prop where
  plain : ∀ k l v, s.params.lookup k = some l → params.lookup k = some v → l.plain = v
  within : ∀ e ∈ s.params, Within s.next e.2

/-- No links fit any parameters. -/
theorem Fits.empty (fields : Entries Linked) (next : Nat) (params : Entries Value) :
    Fits { params := [], fields, next } params where
  plain := fun _ _ _ h => by cases h
  within := fun _ h => absurd h List.not_mem_nil

/-- A parameter that has been linked is found among the links. -/
theorem Fits.enrollOne {s : Sharing} {params : Entries Value} (h : s.Fits params) {k v : Value}
    (hv : params.lookup k = some v) :
    (s.enrollOne k v).Fits params ∧ (v.isContainer = true → (s.enrollOne k v).params.contains k) ∧
      ∀ l, s.params.contains l → (s.enrollOne k v).params.contains l := by
  unfold Sharing.enrollOne
  split
  · have hlinked := Linked.ofValue_spec v s.next
    rcases hrun : (Linked.ofValue v).run s.next with ⟨linked, next⟩
    rw [hrun] at hlinked
    obtain ⟨hplain, hle, hwithin⟩ := hlinked
    dsimp only
    refine ⟨⟨fun l w x hw hx => ?_, fun e he => ?_⟩, fun _ => ?_, fun l hl => ?_⟩
    · rw [Entries.lookup_insert] at hw
      split at hw
      · next hkey =>
        rw [← Entries.lookup_congr hkey, hv] at hx
        obtain rfl := Option.some.inj hw
        exact hplain.trans (Option.some.inj hx)
      · exact h.plain l w x hw hx
    · rcases Entries.mem_insert he with he | ⟨-, hvalue⟩
      · exact (h.within e he).mono hle
      · rw [hvalue]
        exact hwithin
    · show Option.isSome (Entries.lookup _ _) = true
      rw [Entries.lookup_insert, if_pos rfl]
      rfl
    · show Option.isSome (Entries.lookup _ _) = true
      rw [Entries.lookup_insert]
      split
      · rfl
      · exact hl
  · next hknown =>
    refine ⟨h, fun hcontainer => ?_, fun _ hl => hl⟩
    rw [hcontainer] at hknown
    simpa using hknown

/-- Parameters that have been linked fit, and each of their containers is found among the links. -/
theorem Fits.enrollAll {params : Entries Value} (es : Entries Value) :
    ∀ {s : Sharing}, s.Fits params → (∀ e ∈ es, params.lookup e.1 = some e.2) →
      (es.foldl (fun s (k, v) => s.enrollOne k v) s).Fits params ∧
      (∀ e ∈ es, e.2.isContainer = true →
        (es.foldl (fun s (k, v) => s.enrollOne k v) s).params.contains e.1) ∧
      ∀ l, s.params.contains l → (es.foldl (fun s (k, v) => s.enrollOne k v) s).params.contains l := by
  induction es with
  | nil => exact fun h _ => ⟨h, nofun, fun _ hl => hl⟩
  | cons e rest ih =>
    intro s h hes
    obtain ⟨he, hrest⟩ := List.forall_mem_cons.1 hes
    obtain ⟨hone, hfound, hkept⟩ := h.enrollOne he
    obtain ⟨hall, hfounds, hkepts⟩ := ih hone hrest
    exact ⟨hall, List.forall_mem_cons.2 ⟨fun hcontainer => hkepts _ (hfound hcontainer), hfounds⟩,
      fun l hl => hkepts l (hkept l hl)⟩

variable {s : Sharing} {params : Entries Value}

/-- The links fit after all containers of the parameters have been linked. -/
theorem Fits.enroll (h : s.Fits params) (hdistinct : params.Distinct) : (s.enroll params).Fits params :=
  (h.enrollAll params fun _ he => hdistinct.lookup_of_mem he).1

/-- Each linked parameter is the parameter without the numbers. -/
theorem Fits.linked_spec (h : s.Fits params) (hdistinct : params.Distinct) {e : Value × Value}
    (he : e ∈ params) : Linked.plain (((s.enroll params).params.lookup e.1).getD (.leaf e.2)) = e.2 ∧
      Within (s.enroll params).next (((s.enroll params).params.lookup e.1).getD (.leaf e.2)) := by
  obtain ⟨hfits, hfound, -⟩ := h.enrollAll params fun _ he => hdistinct.lookup_of_mem he
  cases hl : (s.enroll params).params.lookup e.1 with
  | some l =>
    obtain ⟨k, hk, -⟩ := Entries.exists_mem_of_lookup hl
    exact ⟨hfits.plain _ _ _ hl (hdistinct.lookup_of_mem he), hfits.within _ hk⟩
  | none =>
    -- Only what is no container is not linked.
    refine ⟨rfl, .leaf ?_⟩
    by_contra hcontainer
    have hcontains := hfound e he (Bool.not_eq_false _ ▸ hcontainer)
    change Option.isSome ((s.enroll params).params.lookup e.1) = true at hcontains
    rw [hl] at hcontains
    cases hcontains

/-- The linked parameters are the parameters without the numbers, and keep to the next number. -/
theorem Fits.linked (h : s.Fits params) (hdistinct : params.Distinct) :
    ((s.enroll params).linked params).mapValues Linked.plain = params ∧
      ∀ e ∈ (s.enroll params).linked params, Within (s.enroll params).next e.2 := by
  constructor
  · unfold Sharing.linked Entries.mapValues
    rw [List.map_map]
    calc params.map _ = params.map fun e => e :=
          List.map_congr_left fun e he => congrArg (e.1, ·) (h.linked_spec hdistinct he).1
      _ = params := List.map_id' _
  · intro e he
    obtain ⟨f, hf, rfl⟩ := List.mem_map.1 he
    exact (h.linked_spec hdistinct hf).2

/-! ## What operations leave -/

/-- Links of some of the parameters fit them if these parameters have not been set since. -/
theorem Fits.restrict (h : s.Fits params) {s' : Sharing} {params' : Entries Value} (hnext : s.next ≤ s'.next)
    (hmem : ∀ e ∈ s'.params, e ∈ s.params)
    (hkept : ∀ k l, s'.params.lookup k = some l →
      s.params.lookup k = some l ∧ params'.lookup k = params.lookup k) : s'.Fits params' where
  plain := by
    intro k l v hl hv
    obtain ⟨hbefore, hsame⟩ := hkept k l hl
    exact h.plain k l v hbefore (hsame ▸ hv)
  within := fun e he => (h.within e (hmem e he)).mono hnext

/-- A key that has been forgotten is not known, and the others are as before. -/
theorem lookup_forget {key k : Value} {l : Linked} (hl : (s.forget key).params.lookup k = some l) :
    s.params.lookup k = some l ∧ key.key? ≠ k.key? := by
  change (s.params.erase key).lookup k = some l at hl
  rw [Entries.lookup_erase] at hl
  split at hl
  · cases hl
  · next hkey => exact ⟨hl, hkey⟩

/-- Forgetting a key leaves links that were known. -/
theorem mem_of_mem_forget {key : Value} {e : Value × Linked} (he : e ∈ (s.forget key).params) :
    e ∈ s.params := by
  change e ∈ s.params.erase key at he
  rw [Entries.erase_eq_filter] at he
  exact List.mem_of_mem_filter he

/-- Links that are not forgotten fit if nothing but what has been forgotten has been set. -/
theorem Fits.forgetAll {params' : Entries Value} (keys : List Value) :
    ∀ {s : Sharing}, s.Fits params →
      (∀ k, (∀ key ∈ keys, key.key? ≠ k.key?) → params'.lookup k = params.lookup k) →
      (keys.foldl Sharing.forget s).Fits params' := by
  intro s h hsame
  have hfolded : (keys.foldl Sharing.forget s).next = s.next ∧
      (∀ e ∈ (keys.foldl Sharing.forget s).params, e ∈ s.params) ∧
      ∀ k l, (keys.foldl Sharing.forget s).params.lookup k = some l →
        s.params.lookup k = some l ∧ ∀ key ∈ keys, key.key? ≠ k.key? := by
    clear h hsame
    induction keys generalizing s with
    | nil => exact ⟨rfl, fun _ he => he, fun _ _ hl => ⟨hl, nofun⟩⟩
    | cons key rest ih =>
      obtain ⟨hnext, hmem, hkept⟩ := ih (s := s.forget key)
      refine ⟨hnext, fun e he => mem_of_mem_forget (hmem e he), fun k l hl => ?_⟩
      obtain ⟨hl', hrest⟩ := hkept k l hl
      obtain ⟨hbefore, hkey⟩ := lookup_forget hl'
      exact ⟨hbefore, List.forall_mem_cons.2 ⟨hkey, hrest⟩⟩
  obtain ⟨hnext, hmem, hkept⟩ := hfolded
  refine h.restrict (Nat.le_of_eq hnext.symm) hmem fun k l hl => ?_
  obtain ⟨hbefore, hkeys⟩ := hkept k l hl
  exact ⟨hbefore, hsame k hkeys⟩

/-- The containers among linked parameters fit the parameters. -/
theorem fits_containers {d : Entries Linked} (hd : d.Distinct) {next : Nat} {fields : Entries Linked}
    (hwithin : ∀ e ∈ d, Within next e.2) :
    Fits { params := containers d, fields, next } (d.mapValues Linked.plain) where
  plain := by
    intro k l v hl hv
    obtain ⟨k', hmem, hkey⟩ := Entries.exists_mem_of_lookup hl
    rw [Entries.lookup_mapValues, ← Entries.lookup_congr hkey,
      hd.lookup_of_mem (List.mem_of_mem_filter hmem)] at hv
    exact Option.some.inj hv
  within := fun e he => hwithin e (List.mem_of_mem_filter he)

/-- The links fit the parameters that building leaves. -/
theorem Fits.build (h : s.Fits params) (hdistinct : params.Distinct) (o : DelimiterOptions) :
    (s.build o params).sharing.Fits (s.build o params).params := by
  obtain ⟨hplain, hwithin⟩ := h.linked hdistinct
  let start : Assembly :=
    { root := .dict (s.enroll params).next [], params := (s.enroll params).linked params
      fields := (s.enroll params).fields, next := (s.enroll params).next + 1 }
  have hstart : start.Bounded :=
    ⟨.dict (Nat.lt_succ_self _) nofun, fun e he => (hwithin e he).mono (Nat.le_succ _)⟩
  have hkeys : (Assembly.putAll o params.keys start).1.params.keys = params.keys := by
    rw [Assembly.keys_putAll, ← Entries.keys_mapValues Linked.plain]
    exact congrArg Entries.keys hplain
  exact fits_containers (hdistinct.of_keys hkeys) (hstart.putAll o params.keys).params

/-- The links of parameters that are flattened once more fit their flat form. -/
theorem Fits.flatten (h : s.Fits params) (hdistinct : params.Distinct) {o : DelimiterOptions}
    {s' : Sharing} (hs : s.flatten o params = .ok s') {flat : Entries Value}
    (hflat : o.flatten (.dict params) = .ok flat) : s'.Fits flat := by
  obtain ⟨hplain, hwithin⟩ := h.linked hdistinct
  obtain ⟨pairs, hpairs, hs'⟩ := bind_eq_ok_iff.1 hs
  obtain rfl := Except.ok.inj hs'
  obtain ⟨hleaves, hbound⟩ := Linked.leafy_entries fun e he => (hwithin e he).leafy
  obtain ⟨hkeyed, hmem⟩ := DelimiterOptions.mapM_keyed Linked.plain hpairs
  have hvalues : (Value.leaves.entryLeaves params).mapM o.keyed =
      .ok (Entries.mapValues Linked.plain pairs) := by
    rw [hplain] at hleaves
    rw [← hkeyed, ← hleaves]
    rfl
  rw [DelimiterOptions.flatten_eq_ok_iff, hvalues] at hflat
  obtain rfl := Except.ok.inj hflat.2
  rw [← Entries.mapValues_ofPairs]
  refine fits_containers (Entries.distinct_ofPairs _) fun e he => ?_
  obtain ⟨p, hp, hvalue⟩ := Entries.exists_of_mem_ofPairs he
  obtain ⟨l, hl, hleaf⟩ := hmem p hp
  rw [← hvalue, ← hleaf]
  exact hbound l hl

/-! ## Data without a container on the way -/

/-- The path of no container begins that of another parameter. -/
def Unentangled (o : DelimiterOptions) (params : Entries Value) : Prop :=
  ∀ e ∈ params, e.2.isContainer = true → ∀ p, o.Reads e.1 p → ∀ f ∈ params, p.begins (o.path f.1) = false

/-- Building goes as it does without links and leaves the parameters alone, if the path of no container
begins that of another parameter. -/
theorem build_of_unentangled (h : s.Fits params) (hdistinct : params.Distinct) {o : DelimiterOptions}
    (hpaths : Unentangled o params) :
    (s.build o params).params = params ∧ (s.build o params).data = o.unflatten (.dict params) := by
  obtain ⟨hplain, hwithin⟩ := h.linked hdistinct
  -- Containers are put in as a whole at the paths of their keys.
  let stored (p : Path) : Prop := ∃ e ∈ params, e.2.isContainer = true ∧ o.Reads e.1 p
  let base := (s.enroll params).next
  let start : Assembly :=
    { root := .dict base [], params := (s.enroll params).linked params
      fields := (s.enroll params).fields, next := base + 1 }
  have hempty : ∀ t w, (Linked.dict base []).child? t = some w →
      Grown base (fun _ => []) stored ([] ++ [t]) w := by
    intro t w hw
    cases t <;> cases hw
  have hfixed : ∀ j new, base ≤ j → start.params.mapValues (Linked.renew j new) = start.params := by
    intro j new hj
    calc _ = List.map (fun e => e) ((s.enroll params).linked params) :=
          List.map_congr_left fun e he => congrArg (e.1, ·) ((hwithin e he).renew_of_le hj new)
      _ = _ := List.map_id' _
  have hstart : Assembly.Stage base (fun _ => []) stored [] base start.root start :=
    Assembly.stage_root rfl
      (.made rfl (Nat.le_refl base) rfl ⟨List.forall_mem_nil _, List.Pairwise.nil⟩ hempty)
      (.dict (Nat.lt_succ_self base) (List.forall_mem_nil _)) (Nat.le_succ base) hfixed
  have hlinks : ∀ e ∈ params, ∃ l, ((s.enroll params).linked params).lookup e.1 = some l ∧
      l.plain = e.2 ∧ Within (s.enroll params).next l := by
    intro e he
    have hlookup := hdistinct.lookup_of_mem he
    rw [← hplain, Entries.lookup_mapValues] at hlookup
    obtain ⟨l, hl, hvalue⟩ := Option.map_eq_some_iff.1 hlookup
    obtain ⟨k, hk, -⟩ := Entries.exists_mem_of_lookup hl
    exact ⟨l, hl, hvalue, hwithin _ hk⟩
  have hbegins : ∀ f ∈ params, ∀ p, stored p → p.begins (o.path f.1) = false := by
    rintro f hf p ⟨e, he, hcontainer, hreads⟩
    exact hpaths e he hcontainer p hreads f hf
  have hstored : ∀ e ∈ params, e.2.isContainer = true → ∀ p, o.Reads e.1 p → stored p :=
    fun e he hcontainer p hreads => ⟨e, he, hcontainer, hreads⟩
  obtain ⟨hparams, hbuilt⟩ := Assembly.putAll_follows hstart hlinks hbegins hstored
  exact ⟨(congrArg (Entries.mapValues Linked.plain) hparams).trans hplain, hbuilt⟩

end Sharing

/-! ## Flat entries of nested data -/

/-- What is read from the pieces of a path is a part of it. -/
theorem Segment.steps_initial (key : Value) (p : Path) : steps key (p.map Step.segment) <+: p := by
  induction p with
  | nil => exact List.prefix_rfl
  | cons s p ih =>
    cases hstep : s.segment.step key with
    | error e =>
      have hnil : steps key ((s :: p).map Step.segment) = [] := by
        rw [List.map_cons, steps, List.foldr_cons, hstep]
      exact hnil ▸ List.nil_prefix
    | ok t =>
      obtain rfl := Step.eq_of_step_segment hstep
      rw [List.map_cons, steps_cons hstep]
      exact List.cons_prefix_cons.2 ⟨rfl, ih⟩

/-- A path that has been read from the pieces of another one is that one. -/
theorem Segment.eq_of_mapM_step {key : Value} {p : Path} :
    ∀ {q : Path}, (p.map Step.segment).mapM (Segment.step key) = .ok q → q = p := by
  induction p with
  | nil => exact fun h => (Except.ok.inj h).symm
  | cons s p ih =>
    intro q h
    obtain ⟨t, q, hstep, hrest, rfl⟩ := Segment.mapM_step_eq_ok_iff.1 h
    rw [Step.eq_of_step_segment hstep, ih hrest]

namespace DelimiterOptions

variable {hash array escape : String}

/-- The flat key of a leaf leads along a part of its path, and the whole of it if it can be read. -/
theorem path_flatEntry (hd : Delimiters.Separate ⟨hash.toList, array.toList, escape.toList⟩)
    {entries : Entries Value} {l : Path × Value} (hl : l ∈ Value.leaves.entryLeaves entries) :
    (ofTexts hash array escape).path
        (Delimiters.flatEntry ⟨hash.toList, array.toList, escape.toList⟩ l).1 <+: l.1 ∧
      ∀ p, (ofTexts hash array escape).Reads
        (Delimiters.flatEntry ⟨hash.toList, array.toList, escape.toList⟩ l).1 p → p = l.1 := by
  obtain ⟨e, -, q, hpath⟩ := Value.exists_of_mem_entryLeaves hl
  have hsplit : (ofTexts hash array escape).split
      (Delimiters.flatEntry ⟨hash.toList, array.toList, escape.toList⟩ l).1 =
        .ok (l.1.map Step.segment) := by
    rw [Delimiters.flatEntry, split_ofTexts, hpath, hd.split_spell]
  constructor
  · rw [path_of_split hsplit]
    exact Segment.steps_initial _ _
  · rintro p ⟨segments, hsegments, hp⟩
    obtain rfl := Except.ok.inj (hsplit.symm.trans hsegments)
    exact Segment.eq_of_mapM_step hp

/-- Among the flat entries of nested data no path begins another one. -/
theorem unentangled_flatten (hd : Delimiters.Separate ⟨hash.toList, array.toList, escape.toList⟩)
    {entries flat : Entries Value} (hx : Value.Nested (.dict entries))
    (hflat : (ofTexts hash array escape).flatten (.dict entries) = .ok flat) :
    Sharing.Unentangled (ofTexts hash array escape) flat := by
  have hleaves : flat = (Value.leaves.entryLeaves entries).map
      (Delimiters.flatEntry ⟨hash.toList, array.toList, escape.toList⟩) :=
    (Except.ok.inj ((flatten_dict rfl hx.keysWritable).symm.trans hflat)).symm.trans
      (Delimiters.flatten_of_nested hd hx)
  have hfree : (Value.leaves.entryLeaves entries).Pairwise fun l m => l.1 = m.1 ∨ Path.Free l.1 m.1 :=
    hx.pairwise_entryLeaves (R := fun p q => p = q ∨ p.Free q) fun h => .inr h.free
  have hpaths := List.Pairwise.forall_of_forall_of_flip (fun _ _ => .inl rfl) hfree
    (hfree.imp fun h => h.imp Eq.symm Path.Free.symm)
  rw [hleaves]
  intro e he _ p hp f hf
  obtain ⟨l, hl, rfl⟩ := List.mem_map.1 he
  obtain ⟨m, hm, rfl⟩ := List.mem_map.1 hf
  obtain rfl := (path_flatEntry hd hl).2 p hp
  have hpart := (path_flatEntry hd hm).1
  by_contra hbegins
  obtain ⟨hlength, hbegins⟩ := Path.begins_iff.1 (Bool.not_eq_false _ ▸ hbegins)
  rcases hpaths hl hm with heq | hfree
  · rw [heq] at hlength
    exact absurd hpart.length_le (Nat.not_le.2 hlength)
  · exact hfree.1 (hbegins.trans hpart)

end DelimiterOptions

end ParamCheck
