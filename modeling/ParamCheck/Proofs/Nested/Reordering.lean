import ParamCheck.Proofs.Nested.Placing

/-!
# Building in another order

The leaves of nested data that are built from the entries of a flat mapping are these entries at the
paths of their keys (`DelimiterOptions.gathered_of_buildOn`). If no path begins another one, building
fails only for a key that cannot be read, for two paths that jar, or because memory runs out
(`exhausts_of_buildOn`), which takes an index that no list can have (`exists_index_of_buildOn`). Nothing of
that has to do with the order of the entries, and so nothing but the order of keys depends on it
(`unflatten_perm`).
-/

namespace ParamCheck

namespace Delimiters

/-- The first piece is of the kind that is being read. -/
theorem splitFrom_eq_cons (d : Delimiters) (isArray : Bool) (token cs : List Char) :
    ∃ token' rest, d.splitFrom isArray token cs = segment isArray token' :: rest := by
  fun_induction splitFrom d isArray token cs with
  | case1 isArray token cs rest h mark rest' h' ih => exact ih
  | case2 isArray token cs rest h h' ih => exact ih
  | case3 => exact ⟨_, _, rfl⟩
  | case4 => exact ⟨_, _, rfl⟩
  | case5 isArray token c cs h h' ih => exact ih

/-- Every key has a piece. -/
theorem split_ne_nil (d : Delimiters) (key : List Char) : d.split key ≠ [] := by
  obtain ⟨token, rest, hcons⟩ := d.splitFrom_eq_cons false [] key
  rw [split, hcons]
  exact List.cons_ne_nil _ _

end Delimiters

namespace DelimiterOptions

/-- The steps of a key, up to the first that cannot be read. -/
def path (o : DelimiterOptions) (key : Value) : Path :=
  match o.split key with
  | .ok segments =>
    segments.foldr (fun s path =>
      match s.step key with
      | .ok step => step :: path
      | .error _ => []) []
  | .error _ => []

/-- A key can be read, and leads along a path. -/
def Reads (o : DelimiterOptions) (key : Value) (p : Path) : Prop :=
  ∃ segments, o.split key = .ok segments ∧ segments.mapM (Segment.step key) = .ok p

/-- An entry of a flat mapping as a leaf at the end of its path. -/
def leaf (o : DelimiterOptions) (e : Value × Value) : Path × Value := (o.path e.1, e.2)

/-- A key leads along the steps of its segments, as far as they can be read. -/
theorem path_of_split {o : DelimiterOptions} {key : Value} {segments : List Segment}
    (h : o.split key = .ok segments) : o.path key = Segment.steps key segments := by
  rw [path, h]
  rfl

/-- A key that can be read leads along its steps. -/
theorem Reads.path_eq {o : DelimiterOptions} {key : Value} {p : Path} (h : o.Reads key p) :
    o.path key = p := by
  obtain ⟨segments, hsplit, hp⟩ := h
  rw [path_of_split hsplit]
  clear hsplit
  induction segments generalizing p with
  | nil => exact Except.ok.inj hp
  | cons segment rest ih =>
    obtain ⟨s, q, hstep, hrest, rfl⟩ := Segment.mapM_step_eq_ok_iff.1 hp
    rw [Segment.steps_cons hstep, ih hrest]

section Texts

variable {o : DelimiterOptions} {d : Delimiters} (ho : o.delimiters? = some d)

include ho

/-- Delimiters that are texts split every text. -/
theorem split_str (s : String) : o.split (.str s) = .ok (d.split s.toList) := by
  have hsized : isSized o.hash = true ∧ isSized o.array = true := by
    unfold delimiters? at ho
    split at ho
    · next hhash harray _ => exact ⟨hhash ▸ rfl, harray ▸ rfl⟩
    · next hhash harray _ => exact ⟨hhash ▸ rfl, harray ▸ rfl⟩
    · cases ho
  unfold split
  rw [hsized.1, hsized.2, ho]
  rfl

/-- The path of a text begins with a key. -/
theorem Reads.exists_key {s : String} {p : Path} (h : o.Reads (.str s) p) :
    ∃ k q, p = .key k :: q := by
  obtain ⟨segments, hsplit, hp⟩ := h
  obtain rfl := Except.ok.inj ((split_str ho s).symm.trans hsplit)
  obtain ⟨token, rest, hcons⟩ := d.splitFrom_eq_cons false [] s.toList
  rw [Delimiters.split, hcons] at hp
  obtain ⟨k, q, hk, -, rfl⟩ := Segment.mapM_step_eq_ok_iff.1 hp
  exact ⟨_, q, congrArg (· :: q) (Except.ok.inj hk).symm⟩

/-- Entries are put in one by one. -/
theorem buildOn_cons (root v : Value) (s : String) (rest : Entries Value) :
    o.buildOn root ((.str s, v) :: rest) =
      match Value.place (.str s) (d.split s.toList) root v with
      | (root, none) => o.buildOn root rest
      | (_, some e) => .error e := by
  rw [buildOn, split_str ho]
  rfl

/-- An entry that is put in successfully has a path and is one more leaf. -/
theorem gathered_of_put {ls : List (Path × Value)} {root root' v : Value} {s : String}
    (hv : v.isContainer = false) (hroot : Value.Gathered ls root) (hcontainer : root.isContainer = true)
    (hfree : ∀ p, o.Reads (.str s) p → ∀ l ∈ ls, Path.Free p l.1)
    (hplace : Value.place (.str s) (d.split s.toList) root v = (root', none)) :
    ∃ p, o.Reads (.str s) p ∧ Value.Gathered (ls ++ [(p, v)]) root' ∧ root'.isContainer = true ∧
      ((∀ l ∈ ls, Path.Fits l.1) → Path.Fits p) := by
  have hplaces := Value.places_of_place _ (d.split_ne_nil _) hplace
  obtain ⟨t, p, hp, hgathered⟩ := hplaces.gathered rfl hv hroot hcontainer
    fun p hp => hfree p ⟨_, split_str ho s, hp⟩
  exact ⟨t :: p, ⟨_, split_str ho s, hp⟩, hgathered,
    hgathered.isContainer (List.mem_append_right _ List.mem_cons_self),
    fun hfits => hplaces.fits rfl hroot hfits hp⟩

/-- The leaves of entries that are put in successfully are more leaves of the data, and their paths
fit. -/
theorem gathered_of_buildOn {es : Entries Value} :
    ∀ {ls root r}, (∀ e ∈ es, (∃ s, e.1 = .str s) ∧ e.2.isContainer = false) →
      (es.Pairwise fun e f => ∀ p q, o.Reads e.1 p → o.Reads f.1 q → Path.Free p q) →
      (∀ e ∈ es, ∀ p, o.Reads e.1 p → ∀ l ∈ ls, Path.Free p l.1) → (∀ l ∈ ls, Path.Fits l.1) →
      Value.Gathered ls root → root.isContainer = true → o.buildOn root es = .ok r →
        (∀ e ∈ es, o.Reads e.1 (o.path e.1) ∧ (o.path e.1).Fits) ∧
          Value.Gathered (ls ++ es.map o.leaf) r := by
  induction es with
  | nil =>
    intro ls root r _ _ _ _ hroot _ h
    obtain rfl := Except.ok.inj h
    refine ⟨fun e he => absurd he List.not_mem_nil, ?_⟩
    rwa [List.map_nil, List.append_nil]
  | cons e rest ih =>
    intro ls root r hflat hfree hls hfits hroot hcontainer h
    obtain ⟨⟨⟨s, hs⟩, hv⟩, hflat'⟩ := List.forall_mem_cons.1 hflat
    obtain ⟨hfirst, hfree'⟩ := List.pairwise_cons.1 hfree
    obtain ⟨hls, hls'⟩ := List.forall_mem_cons.1 hls
    obtain ⟨key, v⟩ := e
    obtain rfl : key = .str s := hs
    rw [buildOn_cons ho] at h
    split at h
    · next root' hplace =>
      obtain ⟨p, hreads, hroot', hcontainer', hp⟩ := gathered_of_put ho hv hroot hcontainer hls hplace
      have hmore : ∀ e ∈ rest, ∀ q, o.Reads e.1 q → ∀ l ∈ ls ++ [(p, v)], Path.Free q l.1 := by
        intro e he q hq l hl
        rcases List.mem_append.1 hl with hl | hl
        · exact hls' e he q hq l hl
        · obtain rfl := List.mem_singleton.1 hl
          exact (hfirst e he _ _ hreads hq).symm
      have hfits' : ∀ l ∈ ls ++ [(p, v)], Path.Fits l.1 := by
        intro l hl
        rcases List.mem_append.1 hl with hl | hl
        · exact hfits l hl
        · obtain rfl := List.mem_singleton.1 hl
          exact hp hfits
      obtain ⟨hall, hr⟩ := ih hflat' hfree' hmore hfits' hroot' hcontainer' h
      refine ⟨List.forall_mem_cons.2 ⟨hreads.path_eq.symm ▸ ⟨hreads, hp hfits⟩, hall⟩, ?_⟩
      rw [List.append_assoc, List.singleton_append] at hr
      rwa [List.map_cons, leaf, hreads.path_eq]
    · cases h

/-- Entries whose paths part from one another can be put in, unless memory runs out. -/
theorem exhausts_of_buildOn {es : Entries Value} {fault : Fault} :
    ∀ {ls root}, (∀ e ∈ es, (∃ s, e.1 = .str s) ∧ e.2.isContainer = false) →
      (∀ e ∈ es, o.Reads e.1 (o.path e.1)) →
      (es.Pairwise fun e f => (o.path e.1).Apart (o.path f.1)) →
      (∀ e ∈ es, ∀ l ∈ ls, (o.path e.1).Apart l.1) →
      Value.Gathered ls root → root.isContainer = true →
      (∀ e ∈ es, ∀ s p, o.path e.1 = s :: p → s.Enters root) →
      o.buildOn root es = .error fault → fault.Exhausts := by
  induction es with
  | nil =>
    intro ls root _ _ _ _ _ _ _ h
    cases h
  | cons e rest ih =>
    intro ls root hflat hreads hapart hls hroot hcontainer henters h
    obtain ⟨⟨⟨s, hs⟩, hv⟩, hflat'⟩ := List.forall_mem_cons.1 hflat
    obtain ⟨hread, hreads'⟩ := List.forall_mem_cons.1 hreads
    obtain ⟨hfirst, hapart'⟩ := List.pairwise_cons.1 hapart
    obtain ⟨hls, hls'⟩ := List.forall_mem_cons.1 hls
    obtain ⟨key, v⟩ := e
    obtain rfl : key = .str s := hs
    rw [buildOn_cons ho] at h
    split at h
    · next root' hplace =>
      have hfree : ∀ p, o.Reads (.str s) p → ∀ l ∈ ls, Path.Free p l.1 :=
        fun p hp l hl => hp.path_eq ▸ (hls l hl).free
      obtain ⟨p, hp, hroot', hcontainer', -⟩ := gathered_of_put ho hv hroot hcontainer hfree hplace
      have hmore : ∀ e ∈ rest, ∀ l ∈ ls ++ [(p, v)], (o.path e.1).Apart l.1 := by
        intro e he l hl
        rcases List.mem_append.1 hl with hl | hl
        · exact hls' e he l hl
        · obtain rfl := List.mem_singleton.1 hl
          exact hp.path_eq ▸ (hfirst e he).symm
      -- The data hold a leaf now, so that the other paths show that their first steps enter.
      refine ih hflat' hreads' hapart' hmore hroot' hcontainer' (fun e he t q hq => ?_) h
      exact hroot'.enters (by simp) (hq ▸ hmore e he)
    · next root' e hplace =>
      obtain rfl := Except.error.inj h
      obtain ⟨k, p, hpath⟩ := hread.exists_key ho
      have henter := henters _ List.mem_cons_self _ _ hpath
      obtain ⟨segments, hsplit, hp⟩ := hread
      obtain rfl := Except.ok.inj ((split_str ho s).symm.trans hsplit)
      rw [hpath] at hp hls
      exact (Value.places_of_place _ (d.split_ne_nil _) hplace).exhausts rfl hroot henter hp hls

/-- Memory runs out only for a key with an index that no list can have. -/
theorem exists_index_of_buildOn {es : Entries Value} {fault : Fault} (hfault : fault.Exhausts) :
    ∀ {root}, (∀ e ∈ es, ∃ s, e.1 = .str s) → o.buildOn root es = .error fault →
      ∃ e ∈ es, ∃ n, Step.index n ∈ o.path e.1 ∧ Step.maxItems ≤ n := by
  induction es with
  | nil =>
    intro root _ h
    cases h
  | cons e rest ih =>
    intro root htexts h
    obtain ⟨⟨s, hs⟩, htexts'⟩ := List.forall_mem_cons.1 htexts
    obtain ⟨key, v⟩ := e
    obtain rfl : key = .str s := hs
    rw [buildOn_cons ho] at h
    split at h
    · obtain ⟨e, he, hindex⟩ := ih htexts' h
      exact ⟨e, List.mem_cons_of_mem _ he, hindex⟩
    · next hplace =>
      obtain rfl := Except.error.inj h
      refine ⟨_, List.mem_cons_self, ?_⟩
      rw [path_of_split (split_str ho s)]
      exact (Value.places_of_place _ (d.split_ne_nil _) hplace).exists_index rfl hfault

end Texts

/-- Nested data hold the entries of a flat mapping: every path leads to the value of its entry, and lists
have nulls where no path leads through. -/
structure Holds (o : DelimiterOptions) (es : Entries Value) (r : Value) : Prop where
  follow : ∀ e ∈ es, ∃ p, o.Reads e.1 p ∧ Value.follow? p r = some e.2
  null : ∀ {c items n x}, Value.follow? c r = some (.list items) → items[n]? = some x →
    (∀ e ∈ es, ∀ p, o.Reads e.1 p → ¬c ++ [.index n] <+: p) → x = .null

/-- Holding entries does not depend on their order. -/
theorem Holds.perm {o : DelimiterOptions} {xs ys : Entries Value} {r : Value} (h : o.Holds ys r)
    (hperm : xs.Perm ys) : o.Holds xs r where
  follow := fun e he => h.follow e (hperm.mem_iff.1 he)
  null := fun hc hx hno => h.null hc hx fun e he => hno e (hperm.mem_iff.2 he)

section Order

variable {o : DelimiterOptions} {d : Delimiters} (ho : o.delimiters? = some d)
  {xs ys : Entries Value} (hflat : ∀ e ∈ xs, (∃ s, e.1 = .str s) ∧ e.2.isContainer = false)

include ho hflat

variable (hfree : xs.Pairwise fun e f => ∀ p q, o.Reads e.1 p → o.Reads f.1 q → Path.Free p q)

include hfree

/-- The leaves of nested data are the entries at the paths of their keys. -/
theorem gathered_of_unflatten {r : Value} (h : o.unflatten (.dict xs) = .ok r) :
    (∀ e ∈ xs, o.Reads e.1 (o.path e.1) ∧ (o.path e.1).Fits) ∧ Value.Gathered (xs.map o.leaf) r :=
  gathered_of_buildOn ho hflat hfree (fun _ _ _ _ _ hl => absurd hl List.not_mem_nil)
    (fun _ hl => absurd hl List.not_mem_nil) .nil_dict rfl h

/-- Nested data hold the entries that they are built from. -/
theorem holds_of_unflatten {r : Value} (h : o.unflatten (.dict xs) = .ok r) : o.Holds xs r := by
  obtain ⟨hall, hr⟩ := gathered_of_unflatten ho hflat hfree h
  refine ⟨fun e he => ⟨_, (hall e he).1, hr.follow_eq (List.mem_map_of_mem he)⟩, ?_⟩
  intro c items n x hc hx hno
  refine hr.eq_null hc hx fun l hl => ?_
  obtain ⟨e, he, rfl⟩ := List.mem_map.1 hl
  exact hno e he _ (hall e he).1

/-- If the entries can be put in, they can be in another order. -/
theorem unflatten_ok_of_perm (hperm : xs.Perm ys) {r : Value}
    (h : o.unflatten (.dict xs) = .ok r) : ∃ r', o.unflatten (.dict ys) = .ok r' := by
  obtain ⟨hall, hr⟩ := gathered_of_unflatten ho hflat hfree h
  -- Paths that are free of one another part, since those of leaves do not jar.
  have hapart : xs.Pairwise fun e f => (o.path e.1).Apart (o.path f.1) := by
    refine hfree.imp_of_mem fun {e f} he hf hef => ?_
    refine (hef _ _ (hall e he).1 (hall f hf).1).apart ?_
    exact hr.not_jars (List.mem_map_of_mem he) (List.mem_map_of_mem hf)
  have hapart' := hperm.pairwise hapart fun h => h.symm
  have hmem : ∀ {e}, e ∈ ys → e ∈ xs := fun he => hperm.mem_iff.2 he
  have henters : ∀ e ∈ ys, ∀ s p, o.path e.1 = s :: p → s.Enters (.dict []) := by
    intro e he s p hp
    obtain ⟨key, v⟩ := e
    obtain ⟨⟨name, rfl⟩, -⟩ := hflat _ (hmem he)
    obtain ⟨k, q, hq⟩ := (hall _ (hmem he)).1.exists_key ho
    obtain rfl := (List.cons.inj (hp.symm.trans hq)).1
    exact .inl ⟨_, _, rfl, rfl⟩
  cases hys : o.unflatten (.dict ys) with
  | ok r' => exact ⟨r', rfl⟩
  | error fault =>
    have hexhausts := exhausts_of_buildOn ho (fun e he => hflat e (hmem he))
      (fun e he => (hall e (hmem he)).1) hapart' (fun _ _ _ hl => absurd hl List.not_mem_nil)
      .nil_dict rfl henters hys
    -- Memory would run out for an index that is on no path.
    obtain ⟨e, he, n, hn, hlarge⟩ :=
      exists_index_of_buildOn ho hexhausts (fun e he => (hflat e (hmem he)).1) hys
    exact absurd ((hall e (hmem he)).2 n hn) (Nat.not_lt.2 hlarge)

/-- If the entries cannot be put in in another order, they cannot be put in at all. -/
theorem raises_of_perm (hperm : xs.Perm ys) (h : ∃ e, o.unflatten (.dict ys) = .error e) :
    ∃ e, o.unflatten (.dict xs) = .error e := by
  obtain ⟨e, he⟩ := h
  cases hxs : o.unflatten (.dict xs) with
  | error e' => exact ⟨e', rfl⟩
  | ok r =>
    obtain ⟨r', hr'⟩ := unflatten_ok_of_perm ho hflat hfree hperm hxs
    cases he.symm.trans hr'

end Order

/-- The order of entries that are scalars under texts does not matter if no path equals or begins
another one. Nested data are built from both orders or from neither. They are the same up to the order of
keys, and they hold the entries. -/
theorem unflatten_perm {o : DelimiterOptions} {d : Delimiters} (ho : o.delimiters? = some d)
    {xs ys : Entries Value} (hflat : ∀ e ∈ xs, (∃ s, e.1 = .str s) ∧ e.2.isContainer = false)
    (hfree : xs.Pairwise fun e f => ∀ p q, o.Reads e.1 p → o.Reads f.1 q → Path.Free p q)
    (hperm : xs.Perm ys) :
    ((∃ e, o.unflatten (.dict xs) = .error e) ↔ ∃ e, o.unflatten (.dict ys) = .error e) ∧
    ∀ r r', o.unflatten (.dict xs) = .ok r → o.unflatten (.dict ys) = .ok r' →
      Value.Rearranged r r' ∧ o.Holds xs r ∧ o.Holds xs r' := by
  have hflat' : ∀ e ∈ ys, (∃ s, e.1 = .str s) ∧ e.2.isContainer = false :=
    fun e he => hflat e (hperm.mem_iff.2 he)
  have hfree' := hperm.pairwise hfree fun h p q hp hq => (h q p hq hp).symm
  refine ⟨⟨raises_of_perm ho hflat' hfree' hperm.symm, raises_of_perm ho hflat hfree hperm⟩, ?_⟩
  intro r r' h h'
  obtain ⟨-, hr⟩ := gathered_of_unflatten ho hflat hfree h
  obtain ⟨-, hr'⟩ := gathered_of_unflatten ho hflat' hfree' h'
  refine ⟨?_, holds_of_unflatten ho hflat hfree h,
    (holds_of_unflatten ho hflat' hfree' h').perm hperm⟩
  cases xs with
  | nil =>
    obtain rfl := hperm.symm.eq_nil
    obtain rfl := Except.ok.inj (h.symm.trans h')
    exact .refl r
  | cons e rest => exact hr.rearranged (hperm.map o.leaf) (List.cons_ne_nil _ _) hr'

/-- A list is made longer with nulls in one order, and its item is put in after them in the other. -/
theorem unflatten_perm_list :
    ∃ r r',
      standard.unflatten (.dict [(.str "a:2.b", .int 1), (.str "c", .null), (.str "a:0", .int 2)]) =
        .ok r ∧
      standard.unflatten (.dict [(.str "a:0", .int 2), (.str "a:2.b", .int 1), (.str "c", .null)]) =
        .ok r' ∧
      Value.Rearranged r r' ∧
      standard.Holds [(.str "a:2.b", .int 1), (.str "c", .null), (.str "a:0", .int 2)] r ∧
      standard.Holds [(.str "a:2.b", .int 1), (.str "c", .null), (.str "a:0", .int 2)] r' := by
  have hpaths : [(Value.str "a:2.b", Value.int 1), (.str "c", .null), (.str "a:0", .int 2)].Pairwise
      fun e f => (standard.path e.1).Free (standard.path f.1) := by decide +kernel
  have hperm : [(Value.str "a:2.b", Value.int 1), (.str "c", .null), (.str "a:0", .int 2)].Perm
      [(.str "a:0", .int 2), (.str "a:2.b", .int 1), (.str "c", .null)] :=
    show ([_, _] ++ [_] : List (Value × Value)).Perm ([_] ++ [_, _]) from List.perm_append_comm
  have h : standard.unflatten (.dict [(.str "a:2.b", .int 1), (.str "c", .null),
      (.str "a:0", .int 2)]) = .ok (.dict [(.str "a", .list [.int 2, .null, .dict [(.str "b", .int 1)]]),
        (.str "c", .null)]) := by cbv
  have h' : standard.unflatten (.dict [(.str "a:0", .int 2), (.str "a:2.b", .int 1),
      (.str "c", .null)]) = .ok (.dict [(.str "a", .list [.int 2, .null, .dict [(.str "b", .int 1)]]),
        (.str "c", .null)]) := by cbv
  obtain ⟨-, hsame⟩ := unflatten_perm (o := standard) rfl
    (by simp [Value.isContainer])
    (hpaths.imp fun hfree p q hp hq => hp.path_eq ▸ hq.path_eq ▸ hfree) hperm
  exact ⟨_, _, h, h', hsame _ _ h h'⟩

end DelimiterOptions

end ParamCheck
