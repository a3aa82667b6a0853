import ParamCheck.Proofs.Nested.Reordering
import ParamCheck.Proofs.Nested.Writing

/-!
# Entries that are overwritten

What is put into nested data may make way for what is put in later: a null for a container on the way of
a longer path, and a container, with all that is in it, for a scalar at the end of a shorter one. A scalar
other than null is in the way of a longer path. `DelimiterOptions.unflatten_keeps` says which entries of a
flat mapping are found in the data that are built of it, and when nothing is built.

`DelimiterOptions.Adds` is one step of building. Whatever all steps preserve, building preserves
(`DelimiterOptions.buildOn_preserves`).
-/

namespace ParamCheck

/-- Whether the first path is a proper beginning of the second. -/
def Path.begins (p q : Path) : Bool := p.length < q.length && p.isPrefixOf q

/-- A path begins a longer one that goes on after it. -/
theorem Path.begins_iff {p q : Path} : p.begins q = true ↔ p.length < q.length ∧ p <+: q := by
  rw [begins, Bool.and_eq_true, decide_eq_true_eq, List.isPrefixOf_iff_prefix]

namespace Value

/-- What goes wrong when a value is put in is an error in the value of a key, or memory runs out. -/
theorem Places.kind_eq {key v node node' : Value} {segments : List Segment} {result : Option Fault}
    (h : Places key v segments node node' result) {e : Fault} (hresult : result = some e) :
    e.kind = .value ∨ e.Exhausts := by
  induction h with
  | last hstep hset => cases hresult
  | @unread segment rest node e' hstep =>
    obtain rfl := Option.some.inj hresult
    left
    cases segment with
    | name token => cases hstep
    | position token =>
      unfold Segment.step at hstep
      dsimp only at hstep
      split at hstep
      · rw [← Except.error.inj hstep]
        rfl
      · split at hstep
        · cases hstep
        · rw [← Except.error.inj hstep]
          rfl
  | @refused segment rest node w s e' hstep hset =>
    obtain rfl := Option.some.inj hresult
    by_cases henters : s.Enters node
    · exact .inr (henters.exhausts hset)
    · left
      cases node with
      | dict entries =>
        cases s with
        | key k => exact absurd (.inl ⟨_, _, rfl, rfl⟩) henters
        | index n => cases hset; rfl
      | list items =>
        cases s with
        | key k => cases hset; rfl
        | index n => exact absurd (.inr ⟨_, _, rfl, rfl⟩) henters
      | _ => cases s <;> cases hset <;> rfl
  | scalar hstep hinto hchild =>
    obtain rfl := Option.some.inj hresult
    exact .inl rfl
  | into hstep hinto hchild h ih => exact ih hresult
  | made hstep hinto hset h ih => exact ih hresult

end Value

namespace DelimiterOptions

/-- An entry is put into data successfully. -/
structure Adds (o : DelimiterOptions) (e : Value × Value) (root root' : Value) : Prop where
  reads : o.Reads e.1 (o.path e.1)
  writes : Value.Writes e.2 (o.path e.1) root root'

/-- An entry stands in data: its key can be read and leads to its value. -/
def Stands (o : DelimiterOptions) (e : Value × Value) (r : Value) : Prop :=
  ∃ p, o.Reads e.1 p ∧ Value.follow? p r = some e.2

section Building

variable {o : DelimiterOptions} {d : Delimiters} (ho : o.delimiters? = some d)

include ho

/-- Building puts the first entry in and goes on. -/
theorem adds_of_buildOn {e : Value × Value} (he : ∃ s, e.1 = .str s) {rest : Entries Value}
    {root r : Value} (h : o.buildOn root (e :: rest) = .ok r) :
    ∃ root', o.Adds e root root' ∧ o.buildOn root' rest = .ok r := by
  obtain ⟨key, v⟩ := e
  obtain ⟨s, rfl : key = .str s⟩ := he
  rw [buildOn_cons ho] at h
  split at h
  · next root' hplace =>
    obtain ⟨p, hp, hwrites⟩ := (Value.places_of_place _ (d.split_ne_nil _) hplace).writes rfl
    have hreads : o.Reads (.str s) p := ⟨_, split_str ho s, hp⟩
    obtain rfl := hreads.path_eq
    exact ⟨root', ⟨hreads, hwrites⟩, h⟩
  · cases h

/-- Building in two goes. -/
theorem buildOn_append {xs ys : Entries Value} (hxs : ∀ e ∈ xs, ∃ s, e.1 = .str s) :
    ∀ {root r}, o.buildOn root (xs ++ ys) = .ok r →
      ∃ mid, o.buildOn root xs = .ok mid ∧ o.buildOn mid ys = .ok r := by
  induction xs with
  | nil => exact fun h => ⟨_, rfl, h⟩
  | cons e rest ih =>
    intro root r h
    obtain ⟨⟨s, hs⟩, hrest⟩ := List.forall_mem_cons.1 hxs
    obtain ⟨key, v⟩ := e
    obtain rfl : key = .str s := hs
    rw [List.cons_append, buildOn_cons ho] at h
    split at h
    · next root' hplace =>
      obtain ⟨mid, hmid, hr⟩ := ih hrest h
      refine ⟨mid, ?_, hr⟩
      rw [buildOn_cons ho, hplace]
      exact hmid
    · cases h

/-- What every entry that is put in preserves, building preserves. -/
theorem buildOn_preserves {P : Value → Prop} {es : Entries Value}
    (hes : ∀ e ∈ es, ∃ s, e.1 = .str s)
    (hstep : ∀ e ∈ es, ∀ root root', o.Adds e root root' → P root → P root') :
    ∀ {root r}, o.buildOn root es = .ok r → P root → P r := by
  induction es with
  | nil =>
    intro root r h hroot
    obtain rfl := Except.ok.inj h
    exact hroot
  | cons e rest ih =>
    intro root r h hroot
    obtain ⟨he, hrest⟩ := List.forall_mem_cons.1 hes
    obtain ⟨root', hadds, h⟩ := adds_of_buildOn ho he h
    exact ih hrest (fun f hf => hstep f (List.mem_cons_of_mem _ hf)) h
      (hstep e List.mem_cons_self _ _ hadds hroot)

/-- Building fails for an error in the value of a key, or because memory runs out. -/
theorem kind_of_buildOn {es : Entries Value} (hes : ∀ e ∈ es, ∃ s, e.1 = .str s) {fault : Fault} :
    ∀ {root}, o.buildOn root es = .error fault → fault.kind = .value ∨ fault.Exhausts := by
  induction es with
  | nil =>
    intro root h
    cases h
  | cons e rest ih =>
    intro root h
    obtain ⟨⟨s, hs⟩, hrest⟩ := List.forall_mem_cons.1 hes
    obtain ⟨key, v⟩ := e
    obtain rfl : key = .str s := hs
    rw [buildOn_cons ho] at h
    split at h
    · exact ih hrest h
    · next hplace =>
      obtain rfl := Except.error.inj h
      exact (Value.places_of_place _ (d.split_ne_nil _) hplace).kind_eq rfl

/-- Every key that is put in successfully can be read. -/
theorem reads_of_buildOn {es : Entries Value} (hes : ∀ e ∈ es, ∃ s, e.1 = .str s) :
    ∀ {root r}, o.buildOn root es = .ok r → ∀ e ∈ es, o.Reads e.1 (o.path e.1) := by
  induction es with
  | nil => exact fun _ e he => absurd he List.not_mem_nil
  | cons e rest ih =>
    intro root r h
    obtain ⟨he, hrest⟩ := List.forall_mem_cons.1 hes
    obtain ⟨root', hadds, h⟩ := adds_of_buildOn ho he h
    exact List.forall_mem_cons.2 ⟨hadds.reads, ih hrest h⟩

end Building

section Later

variable {o : DelimiterOptions} {e : Value × Value} {p : Path} {w root root' : Value}

/-- The path of a text is not empty. -/
theorem Adds.path_ne_nil {d : Delimiters} (ho : o.delimiters? = some d) (he : ∃ s, e.1 = .str s)
    (h : o.Adds e root root') : o.path e.1 ≠ [] := by
  obtain ⟨s, hs⟩ := he
  have hreads := h.reads
  rw [hs] at hreads ⊢
  obtain ⟨k, q, hpath⟩ := hreads.exists_key ho
  rw [hpath]
  exact List.cons_ne_nil _ _

/-- An entry that is put in leaves a scalar that stands, unless its own path begins that of the
scalar, or goes on after a null. -/
theorem Adds.follow_eq (h : o.Adds e root root') (hp : p ≠ []) (hw : w.isContainer = false)
    (hbegins : ¬o.path e.1 <+: p) (hnull : w = .null → ¬p <+: o.path e.1)
    (hfollow : Value.follow? p root = some w) : Value.follow? p root' = some w := by
  by_cases habove : p <+: o.path e.1
  · have hne : p ≠ o.path e.1 := fun heq => hbegins (heq ▸ List.prefix_rfl)
    rcases h.writes.eq_null_of_above habove hne hfollow hw with rfl | rfl
    · exact absurd rfl hp
    · exact absurd habove (hnull rfl)
  · rcases h.writes.follow_of_free ⟨hbegins, habove⟩ with hsame | ⟨hnone, -⟩
    · rwa [hsame]
    · cases hnone.symm.trans hfollow

/-- An entry that is put in leaves a container that stands one, unless its own path begins that of the
container. -/
theorem Adds.isContainer (h : o.Adds e root root') (hbegins : ¬o.path e.1 <+: p)
    (hfollow : ∃ c, Value.follow? p root = some c ∧ c.isContainer = true) :
    ∃ c, Value.follow? p root' = some c ∧ c.isContainer = true := by
  by_cases habove : p <+: o.path e.1
  · exact h.writes.isContainer_above habove fun heq => hbegins (heq ▸ List.prefix_rfl)
  · obtain ⟨c, hc, hcontainer⟩ := hfollow
    rcases h.writes.follow_of_free ⟨hbegins, habove⟩ with hsame | ⟨hnone, -⟩
    · exact ⟨c, hsame.trans hc, hcontainer⟩
    · cases hnone.symm.trans hc

end Later

section Order

variable {o : DelimiterOptions} {d : Delimiters} (ho : o.delimiters? = some d)
  {before after : Entries Value} {e : Value × Value}
  (hflat : ∀ f ∈ before ++ e :: after, (∃ s, f.1 = .str s) ∧ f.2.isContainer = false)

include ho hflat

/-- An entry stands as soon as it has been put in. -/
theorem adds_of_unflatten {r : Value} (h : o.unflatten (.dict (before ++ e :: after)) = .ok r) :
    ∃ root root', o.Adds e root root' ∧ o.buildOn (.dict []) before = .ok root ∧
      o.buildOn root' after = .ok r ∧ Value.follow? (o.path e.1) root' = some e.2 := by
  obtain ⟨root, hbefore, hrest⟩ :=
    buildOn_append ho (fun f hf => (hflat f (List.mem_append_left _ hf)).1) h
  obtain ⟨root', hadds, hafter⟩ :=
    adds_of_buildOn ho (hflat e (List.mem_append_right _ List.mem_cons_self)).1 hrest
  exact ⟨root, root', hadds, hbefore, hafter, hadds.writes.follow_self⟩

/-- An entry whose value is not null is lost if the path of a later one begins its own. -/
theorem not_stands_of_begun {f : Value × Value} (hf : f ∈ after) (hvalue : e.2 ≠ .null)
    (hne : ∀ f ∈ after, o.path f.1 ≠ o.path e.1) (hbegins : o.path f.1 <+: o.path e.1) {r : Value}
    (h : o.unflatten (.dict (before ++ e :: after)) = .ok r) : ¬o.Stands e r := by
  obtain ⟨xs, ys, rfl⟩ := List.append_of_mem hf
  have hflat' : ∀ g ∈ (before ++ e :: xs) ++ f :: ys,
      (∃ s, g.1 = .str s) ∧ g.2.isContainer = false := by simpa using hflat
  have hscalar : e.2.isContainer = false := (hflat e (by simp)).2
  have hsplit : before ++ e :: (xs ++ f :: ys) = (before ++ e :: xs) ++ f :: ys := by simp
  rw [hsplit] at h
  obtain ⟨root, root', hadds, -, hys, hfollow⟩ := adds_of_unflatten ho hflat' h
  -- Nothing stands below the scalar that has taken the place.
  have hlost : ¬Value.follow? (o.path e.1) root' = some e.2 := by
    obtain ⟨q, hq⟩ := hbegins
    have hqne : q ≠ [] := fun hnil => hne f hf (by rw [← hq, hnil, List.append_nil])
    rw [← hq, Value.follow?_append, hfollow, Option.bind_some,
      Value.follow?_of_no_child (Value.child?_of_scalar (hflat' f (by simp)).2) hqne]
    exact nofun
  rintro ⟨p, hreads, hstands⟩
  obtain rfl := hreads.path_eq
  refine buildOn_preserves ho (P := fun v => ¬Value.follow? (o.path e.1) v = some e.2)
    (fun g hg => (hflat' g (by simp [hg])).1) (fun g hg v v' hadds hv hv' => hv ?_) hys hlost hstands
  exact hadds.writes.follow_of_scalar (hflat' g (by simp [hg])).2 hscalar hvalue
    (hne g (by simp [hg])) hv'

/-- An entry that no later path begins stands, unless its value is null and a later path goes on after
its own. -/
theorem stands_of_not_begun (hbegins : ∀ f ∈ after, ¬o.path f.1 <+: o.path e.1)
    (hnull : e.2 = .null → ∀ f ∈ after, ¬o.path e.1 <+: o.path f.1) {r : Value}
    (h : o.unflatten (.dict (before ++ e :: after)) = .ok r) : o.Stands e r := by
  obtain ⟨root, root', hadds, -, hafter, hfollow⟩ := adds_of_unflatten ho hflat h
  have hpath := hadds.path_ne_nil ho (hflat e (by simp)).1
  refine ⟨_, hadds.reads, ?_⟩
  exact buildOn_preserves ho (P := fun v => Value.follow? (o.path e.1) v = some e.2)
    (fun f hf => (hflat f (by simp [hf])).1) (fun f hf v v' hadds hv =>
      hadds.follow_eq hpath (hflat e (by simp)).2 (hbegins f hf) (fun heq => hnull heq f hf) hv)
    hafter hfollow

/-- A null is lost if a later path goes on after its own and none begins it. -/
theorem not_stands_of_continued {f : Value × Value} (hf : f ∈ after)
    (hbegins : ∀ f ∈ after, ¬o.path f.1 <+: o.path e.1) (hcontinues : o.path e.1 <+: o.path f.1)
    {r : Value} (h : o.unflatten (.dict (before ++ e :: after)) = .ok r) : ¬o.Stands e r := by
  obtain ⟨xs, ys, rfl⟩ := List.append_of_mem hf
  have hflat' : ∀ g ∈ (before ++ e :: xs) ++ f :: ys,
      (∃ s, g.1 = .str s) ∧ g.2.isContainer = false := by simpa using hflat
  have hsplit : before ++ e :: (xs ++ f :: ys) = (before ++ e :: xs) ++ f :: ys := by simp
  rw [hsplit] at h
  obtain ⟨root, root', hadds, -, hys, -⟩ := adds_of_unflatten ho hflat' h
  -- A container has taken the place, and it stays one.
  have hne : o.path e.1 ≠ o.path f.1 := fun heq => hbegins f hf (heq ▸ List.prefix_rfl)
  have hcontainer := hadds.writes.isContainer_above hcontinues hne
  obtain ⟨c, hc, hcontainer⟩ := buildOn_preserves ho
    (P := fun v => ∃ c, Value.follow? (o.path e.1) v = some c ∧ c.isContainer = true)
    (fun g hg => (hflat' g (by simp [hg])).1)
    (fun g hg v v' hadds hv => hadds.isContainer (hbegins g (by simp [hg])) hv) hys hcontainer
  rintro ⟨p, hreads, hstands⟩
  obtain rfl := hreads.path_eq
  obtain rfl := Option.some.inj (hc.symm.trans hstands)
  cases (hflat e (by simp)).2.symm.trans hcontainer

end Order

/-- What becomes of the entries of a flat mapping to scalars, whose keys are texts and lead along
different paths. If nested data are built, an entry is in them unless a later path begins its own, or its
value is null and a later path goes on after its own. If the path of an entry goes on after that of an
earlier one whose value is not null, and no path between them begins that of the earlier one, then nothing
is built: that is an error in the value of a key, unless memory runs out. -/
theorem unflatten_keeps {o : DelimiterOptions} {d : Delimiters} (ho : o.delimiters? = some d)
    {es : Entries Value} (hflat : ∀ e ∈ es, (∃ s, e.1 = .str s) ∧ e.2.isContainer = false)
    (hdiffer : es.Pairwise fun e f => ∀ p, o.Reads e.1 p → ¬o.Reads f.1 p) :
    (∀ r, o.unflatten (.dict es) = .ok r → ∀ before e after, es = before ++ e :: after →
      (e.2 ≠ .null → (o.Stands e r ↔ ∀ f ∈ after, ¬o.path f.1 <+: o.path e.1)) ∧
      ((∀ f ∈ after, ¬o.path f.1 <+: o.path e.1) →
        (o.Stands e r ↔ (e.2 = .null → ∀ f ∈ after, ¬o.path e.1 <+: o.path f.1)))) ∧
    ∀ before e between f after, es = before ++ e :: (between ++ f :: after) → e.2 ≠ .null →
      o.path e.1 <+: o.path f.1 → (∀ g ∈ between, ¬o.path g.1 <+: o.path e.1) →
        ∃ fault, o.unflatten (.dict es) = .error fault ∧ (fault.kind = .value ∨ fault.Exhausts) := by
  have hreads : ∀ r, o.unflatten (.dict es) = .ok r → ∀ e ∈ es, o.Reads e.1 (o.path e.1) :=
    fun r h => reads_of_buildOn ho (fun e he => (hflat e he).1) h
  have hne : ∀ r, o.unflatten (.dict es) = .ok r → ∀ before e after, es = before ++ e :: after →
      ∀ f ∈ after, o.path f.1 ≠ o.path e.1 := by
    rintro r h before e after rfl f hf heq
    have hpairs := List.pairwise_cons.1 (List.pairwise_append.1 hdiffer).2.1
    exact hpairs.1 f hf _ (hreads r h e (by simp)) (heq ▸ hreads r h f (by simp [hf]))
  constructor
  · rintro r h before e after rfl
    have hbegun := fun f hf hvalue => not_stands_of_begun ho hflat (f := f) hf hvalue
      (hne r h before e after rfl) (r := r)
    refine ⟨fun hvalue => ⟨fun hstands f hf hbegins => ?_, fun hbegins => ?_⟩, fun hbegins =>
      ⟨fun hstands _ f hf hcontinues => ?_, fun hnull => ?_⟩⟩
    · exact hbegun f hf hvalue hbegins h hstands
    · exact stands_of_not_begun ho hflat hbegins (fun heq => absurd heq hvalue) h
    · exact not_stands_of_continued ho hflat hf hbegins hcontinues h hstands
    · exact stands_of_not_begun ho hflat hbegins hnull h
  · rintro before e between f after rfl hvalue hcontinues hbetween
    cases h : o.unflatten (.dict (before ++ e :: (between ++ f :: after))) with
    | error fault => exact ⟨fault, rfl, kind_of_buildOn ho (fun e he => (hflat e he).1) h⟩
    | ok r =>
      exfalso
      have hdiff := hne r h before e _ rfl f (by simp)
      have hsplit : before ++ e :: (between ++ f :: after) = (before ++ e :: between) ++ f :: after := by
        simp
      rw [hsplit] at h hflat
      obtain ⟨root, root', hadds, hbefore, -, -⟩ := adds_of_unflatten ho hflat h
      -- The earlier entry stands until the later one is put in, and is in its way then.
      obtain ⟨p, hp, hstands⟩ := stands_of_not_begun ho (fun g hg => hflat g (List.mem_append_left _ hg))
        hbetween (fun heq => absurd heq hvalue) hbefore
      obtain rfl := hp.path_eq
      rcases hadds.writes.eq_null_of_above hcontinues (Ne.symm hdiff) hstands
        (hflat e (by simp)).2 with hnil | hnull
      · obtain ⟨_, _, hadds', -⟩ := adds_of_unflatten ho
          (fun g hg => hflat g (List.mem_append_left _ hg)) hbefore
        exact hadds'.path_ne_nil ho (hflat e (by simp)).1 hnil
      · exact hvalue hnull

/-- Of what is put in, a null makes way for a mapping and a mapping for a scalar. A scalar makes way for
nothing but its own path. -/
theorem unflatten_keeps_overwritten :
    (∃ r, standard.unflatten (.dict [(.str "a:1", .null), (.str "a:1.b", .int 1),
        (.str "c.d", .int 3), (.str "c", .int 4)]) = .ok r ∧
      ¬standard.Stands (.str "a:1", .null) r ∧ standard.Stands (.str "a:1.b", .int 1) r ∧
      ¬standard.Stands (.str "c.d", .int 3) r ∧ standard.Stands (.str "c", .int 4) r) ∧
    ∃ fault, standard.unflatten (.dict [(.str "a:0", .int 2), (.str "c", .null),
      (.str "a:0.b", .int 1)]) = .error fault ∧ (fault.kind = .value ∨ fault.Exhausts) := by
  have hdiffer : ∀ {e f : Value × Value}, standard.path e.1 ≠ standard.path f.1 →
      ∀ p, standard.Reads e.1 p → ¬standard.Reads f.1 p :=
    fun hne p hp hq => hne (hp.path_eq.trans hq.path_eq.symm)
  have hpaths : [(Value.str "a:1", Value.null), (.str "a:1.b", .int 1), (.str "c.d", .int 3),
      (.str "c", .int 4)].Pairwise fun e f => standard.path e.1 ≠ standard.path f.1 := by
    decide +kernel
  have hpaths' : [(Value.str "a:0", Value.int 2), (.str "c", .null), (.str "a:0.b", .int 1)].Pairwise
      fun e f => standard.path e.1 ≠ standard.path f.1 := by decide +kernel
  have h : standard.unflatten (.dict [(.str "a:1", .null), (.str "a:1.b", .int 1),
      (.str "c.d", .int 3), (.str "c", .int 4)]) = .ok (.dict
        [(.str "a", .list [.null, .dict [(.str "b", .int 1)]]), (.str "c", .int 4)]) := by cbv
  have hint : ∀ n, Value.int n ≠ .null := by simp
  obtain ⟨hkeeps, -⟩ := unflatten_keeps (o := standard) rfl
    (by simp [Value.isContainer]) (hpaths.imp hdiffer)
  obtain ⟨-, hraises⟩ := unflatten_keeps (o := standard) rfl
    (by simp [Value.isContainer]) (hpaths'.imp hdiffer)
  refine ⟨⟨_, h, ?_, ?_, ?_, ?_⟩, ?_⟩
  · rw [(hkeeps _ h [] _ _ rfl).2 (by decide +kernel)]
    exact fun hstands => absurd (hstands rfl _ List.mem_cons_self) (by decide +kernel)
  · exact ((hkeeps _ h [_] _ _ rfl).1 (hint 1)).2 (by decide +kernel)
  · rw [(hkeeps _ h [_, _] _ _ rfl).1 (hint 3)]
    exact fun hstands => hstands _ List.mem_cons_self (by decide +kernel)
  · exact ((hkeeps _ h [_, _, _] _ _ rfl).1 (hint 4)).2 (by decide +kernel)
  · exact hraises [] _ [_] _ [] rfl (hint 2) (by decide +kernel) (by decide +kernel)

/-- If nested data are built, every entry is in them, and if the path of one entry begins that of another
one, then there is an error in the value of a key instead. -/
def KeepsAll : Prop :=
  ∀ {es : Entries Value}, (∀ e ∈ es, (∃ s, e.1 = .str s) ∧ e.2.isContainer = false) →
    (es.Pairwise fun e f => ∀ p, standard.Reads e.1 p → ¬standard.Reads f.1 p) →
      (∀ r, standard.unflatten (.dict es) = .ok r → ∀ e ∈ es, standard.Stands e r) ∧
      ∀ e ∈ es, ∀ f ∈ es, (standard.path e.1).begins (standard.path f.1) = true →
        ∃ fault, standard.unflatten (.dict es) = .error fault ∧ fault.kind = .value

/-- A scalar takes the place of a mapping that an earlier entry has made. -/
theorem not_keepsAll : ¬KeepsAll := by
  intro h
  have hpaths : [(Value.str "a.b", Value.int 1), (.str "a", .int 2)].Pairwise
      fun e f => standard.path e.1 ≠ standard.path f.1 := by decide +kernel
  obtain ⟨hstands, -⟩ := @h [(.str "a.b", .int 1), (.str "a", .int 2)]
    (by simp [Value.isContainer])
    (hpaths.imp fun hne p hp hq => hne (hp.path_eq.trans hq.path_eq.symm))
  have hbuilt : standard.unflatten (.dict [(.str "a.b", .int 1), (.str "a", .int 2)]) =
      .ok (.dict [(.str "a", .int 2)]) := by cbv
  obtain ⟨p, hreads, hfollow⟩ := hstands _ hbuilt _ List.mem_cons_self
  have hpath : p = [.key "a", .key "b"] := hreads.path_eq.symm.trans (by decide +kernel)
  rw [hpath] at hfollow
  cases hfollow

end DelimiterOptions

end ParamCheck
