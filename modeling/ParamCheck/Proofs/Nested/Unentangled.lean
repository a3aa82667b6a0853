import ParamCheck.Proofs.Nested.Made
import ParamCheck.Proofs.Nested.Overwriting

/-!
# Building that leaves the parameters alone

Building nested data puts the containers that parameters hold into the data as they are, and what is put
into such a container later is in the parameter. If the path of no container begins that of another key,
nothing is ever put into one: building goes as it does without links, whether it succeeds or not, and the
parameters stay as they are (`Sharing.build_of_unentangled`).

`Assembly.Stage` describes a container that building has made and is at work in, and `Assembly.Follows` what
putting a value into it leaves. A way into the container or into a new one ends in the same
(`Stage.follows_into`, `Stage.follows_made`), and so by induction does the whole way (`place_follows`).
-/

namespace ParamCheck

open Linked (Within Occurs Grown)

/-- A path begins every longer one that goes on after it. -/
theorem Path.begins_append (p : Path) (s : Step) (q : Path) : p.begins (p ++ s :: q) = true := by
  rw [begins_iff, List.length_append, List.length_cons]
  exact ⟨by omega, List.prefix_append p _⟩

namespace Assembly

/-- A container that building has made, at its place in data that are being built. What is replaced in it
is replaced in the data, and nothing that building makes is in the parameters. -/
structure Stage (base : Nat) (place : Nat → Path) (P : Path → Prop) (q : Path) (i : Nat)
    (node : Linked) (a : Assembly) : Prop where
  id_eq : node.id? = some i
  le_id : base ≤ i
  grown : Grown base place P q node
  within : Within a.next node
  le_next : base ≤ a.next
  root_within : Within a.next a.root
  params : ∀ j new, base ≤ j → a.params.mapValues (Linked.renew j new) = a.params
  hole : ∀ j new, Occurs j node → base ≤ j →
    Linked.renew j new a.root = Linked.renew i (Linked.renew j new node) a.root

/-- What putting in a value leaves, compared with what it does to the data without numbers. -/
structure Follows (base : Nat) (place : Nat → Path) (P : Path → Prop) (q : Path) (i : Nat)
    (a : Assembly) (outcome : Value × Option Fault) (r : Assembly × Option Fault) : Prop where
  fault : r.2 = outcome.2
  params : r.1.params = a.params
  next : a.next ≤ r.1.next
  grown : r.2 = none → ∃ node' place', r.1.root = Linked.renew i node' a.root ∧ node'.id? = some i ∧
    node'.plain = outcome.1 ∧ Grown base place' P q node' ∧ Within r.1.next node' ∧
      ∀ j < a.next, place' j = place j

/-- A fault of both leaves everything as it was. -/
theorem follows_fault {base : Nat} {place : Nat → Path} {P : Path → Prop} {q : Path} {i : Nat} (a : Assembly)
    (v : Value) (e : Fault) : Follows base place P q i a (v, some e) (a, some e) := by
  refine ⟨rfl, rfl, Nat.le_refl _, fun h => ?_⟩
  cases h

/-- A container that changes does so wherever it stands. -/
theorem renew_of_id {new : Linked} {i : Nat} (hnew : new.id? = some i) (a : Assembly) :
    a.renew new = { a with
      root := Linked.renew i new a.root
      params := a.params.mapValues (Linked.renew i new)
      fields := a.fields.mapValues (Linked.renew i new) } := by
  unfold renew
  rw [hnew]

namespace Stage

variable {base : Nat} {place : Nat → Path} {P : Path → Prop} {q : Path} {i : Nat} {node : Linked}
  {a : Assembly}

/-- Going into a container that building has made. -/
theorem enter (h : Stage base place P q i node a) {s : Step} {child : Linked} {j : Nat}
    (hchild : node.child? s = some child) (hid : child.id? = some j) (hj : base ≤ j) :
    Stage base place P (q ++ [s]) j child a where
  id_eq := hid
  le_id := hj
  grown := h.grown.child h.id_eq h.le_id hchild
  within := h.within.child hchild
  le_next := h.le_next
  root_within := h.root_within
  params := h.params
  hole := by
    intro k new hoccurs hk
    rw [h.hole k new (.child hchild hoccurs) hk, h.hole j _ (.child hchild (.self hid)) hj,
      h.grown.renew_child h.id_eq h.le_id hchild hk hoccurs,
      h.grown.renew_child h.id_eq h.le_id hchild hj (.self hid), Linked.renew_self hid]

/-- The places of containers after a new one has been made. -/
abbrev placed (place : Nat → Path) (n : Nat) (q : Path) : Nat → Path := Function.update place n q

/-- The data that have been built are of their kind after a new container has been made in them. -/
theorem grown_made (h : Stage base place P q i node a) {s : Step} {next : Segment} {made : Linked}
    (hset : node.set s (Linked.emptyFor a.next next) = .ok made) :
    Grown base (placed place a.next (q ++ [s])) P q made := by
  obtain ⟨hid, hkeyed, hchild, -, -⟩ := Linked.emptyFor_spec a.next next
  have hgrown : Grown base (placed place a.next (q ++ [s])) P q node :=
    h.grown.congr_place h.within fun k hk => Function.update_of_ne (Nat.ne_of_lt hk) _ _
  refine hgrown.set h.id_eq h.le_id hset (.made hid h.le_next (Function.update_self ..) hkeyed ?_)
  intro t w hw
  cases (hchild t).symm.trans hw

/-- Going into a new container. -/
theorem make (h : Stage base place P q i node a) {s : Step} {next : Segment} {made : Linked}
    (hset : node.set s (Linked.emptyFor a.next next) = .ok made) :
    Stage base (placed place a.next (q ++ [s])) P (q ++ [s]) a.next (Linked.emptyFor a.next next)
      ({ a with next := a.next + 1 }.renew made) := by
  obtain ⟨hid, hkeyed, hchild, hwithin, -⟩ := Linked.emptyFor_spec a.next next
  have hmade : made.id? = some i := (Linked.id?_set hset).trans h.id_eq
  have hbound := h.within.mono (Nat.le_succ a.next)
  rw [renew_of_id hmade, h.params i made h.le_id]
  refine ⟨hid, h.le_next, .made hid h.le_next (Function.update_self ..) hkeyed ?_, hwithin,
    Nat.le_succ_of_le h.le_next, ?_, h.params, ?_⟩
  · intro t w hw
    cases (hchild t).symm.trans hw
  · exact (h.root_within.mono (Nat.le_succ a.next)).renew (hbound.set hwithin hset) i
  · intro k new hoccurs _
    cases hoccurs with
    | self hk =>
      obtain rfl := Option.some.inj (hid.symm.trans hk)
      rw [Linked.renew_self hid]
    | child hw _ => cases (hchild _).symm.trans hw

/-- What has been put into a container below a step has been put into the container that is there. -/
theorem follows_into (h : Stage base place P q i node a) {s : Step} {child : Linked} {j : Nat}
    (hchild : node.child? s = some child) (hid : child.id? = some j) (hj : base ≤ j)
    {outcome : Value × Option Fault} {r : Assembly × Option Fault}
    (hr : Follows base place P (q ++ [s]) j a outcome r) :
    Follows base place P q i a (s.replace node.plain outcome.1, outcome.2) r := by
  refine ⟨hr.fault, hr.params, hr.next, fun hnone => ?_⟩
  obtain ⟨child', place', hroot, hid', hplain, hgrown, hwithin, hsame⟩ := hr.grown hnone
  refine ⟨node.replace s child', place', ?_, (Linked.id?_replace ..).trans h.id_eq, ?_, ?_,
    (h.within.mono hr.next).replace hwithin s, hsame⟩
  · rw [hroot, h.hole j child' (.child hchild (.self hid)) hj,
      h.grown.renew_child h.id_eq h.le_id hchild hj (.self hid), Linked.renew_self hid]
  · rw [← Linked.replace_plain h.within, hplain]
  · exact (h.grown.congr_place h.within hsame).replace h.id_eq h.le_id hchild hgrown

/-- What has been put into a new container has been put into the container that it has been made in. -/
theorem follows_made (h : Stage base place P q i node a) {s : Step} {next : Segment} {made : Linked}
    (hset : node.set s (Linked.emptyFor a.next next) = .ok made)
    {outcome : Value × Option Fault} {r : Assembly × Option Fault}
    (hr : Follows base (placed place a.next (q ++ [s])) P (q ++ [s]) a.next
      ({ a with next := a.next + 1 }.renew made) outcome r) :
    Follows base place P q i a (s.replace made.plain outcome.1, outcome.2) r := by
  obtain ⟨hid, -, -, hempty, -⟩ := Linked.emptyFor_spec a.next next
  have hmade : made.id? = some i := (Linked.id?_set hset).trans h.id_eq
  have hchild := Linked.child?_set hset
  have hwithinMade := (h.within.mono (Nat.le_succ a.next)).set hempty hset
  rw [renew_of_id hmade, h.params i made h.le_id] at hr
  have hnext : a.next + 1 ≤ r.1.next := hr.next
  refine ⟨hr.fault, hr.params, Nat.le_of_succ_le hnext, fun hnone => ?_⟩
  obtain ⟨child', place', hroot, hid', hplain, hgrown, hwithin, hsame⟩ := hr.grown hnone
  refine ⟨made.replace s child', place', ?_, (Linked.id?_replace ..).trans hmade, ?_, ?_,
    (hwithinMade.mono hnext).replace hwithin s, fun k hk => ?_⟩
  · -- The new container is nowhere but in the one that it has been made in.
    have hlast := (h.grown_made hset).renew_child hmade h.le_id hchild h.le_next (.self hid) child'
    rw [hroot, h.root_within.renew_renew, hlast, Linked.renew_self hid]
  · rw [← Linked.replace_plain hwithinMade, hplain]
  · exact ((h.grown_made hset).congr_place hwithinMade hsame).replace hmade h.le_id hchild hgrown
  · exact (hsame k (Nat.lt_succ_of_lt hk)).trans (Function.update_of_ne (Nat.ne_of_lt hk) _ _)

/-- A value that is put where the last step leads. -/
theorem follows_last (h : Stage base place P q i node a) {key : Value} {segment : Segment} {s : Step}
    (hstep : segment.step key = .ok s) {v : Linked} (hv : Within base v)
    (hstored : v.isContainer = true → P (q ++ [s])) :
    Follows base place P q i a (Value.place key [segment] node.plain v.plain)
      (Assembly.place key v [segment] node a) := by
  rw [Value.place, Assembly.place, hstep]
  dsimp only [Except.bind]
  rw [Linked.set_plain h.within]
  cases hset : node.set s v with
  | error e => exact follows_fault ..
  | ok node' =>
    have hid := (Linked.id?_set hset).trans h.id_eq
    dsimp only [Except.map]
    rw [renew_of_id hid, h.params i node' h.le_id]
    refine ⟨rfl, rfl, Nat.le_refl _, fun _ => ⟨node', place, rfl, hid, rfl, ?_, ?_, fun _ _ => rfl⟩⟩
    · exact h.grown.set h.id_eq h.le_id hset (.stored hv hstored)
    · exact h.within.set (hv.mono h.le_next) hset

end Stage

/-- Nothing is put in for a segment that is no step, with numbers or without. -/
theorem place_unread {key : Value} {segment : Segment} {e : Fault}
    (hstep : segment.step key = .error e) (rest : List Segment) (v node : Linked) (a : Assembly) :
    Value.place key (segment :: rest) node.plain v.plain = (node.plain, some e) ∧
      Assembly.place key v (segment :: rest) node a = (a, some e) := by
  cases rest with
  | nil =>
    rw [Value.place, Assembly.place, hstep]
    exact ⟨rfl, rfl⟩
  | cons next rest =>
    rw [Value.place, Assembly.place, hstep]
    exact ⟨rfl, rfl⟩

/-- What has been put in as a whole is gone into only by a key that cannot be read on. -/
theorem exists_error_of_begins {P : Path → Prop} {q : Path} (hput : P q) {key : Value} {next : Segment}
    {rest : List Segment}
    (hbegins : ∀ p, P p → p.begins (q ++ Segment.steps key (next :: rest)) = false) :
    ∃ e, next.step key = .error e := by
  cases hnext : next.step key with
  | error e => exact ⟨e, rfl⟩
  | ok t =>
    have hbegin := hbegins q hput
    rw [Segment.steps_cons hnext, Path.begins_append] at hbegin
    cases hbegin

/-- Putting in a value goes as it does without numbers and leaves the parameters alone, if no container
that has been put in as a whole is on the way. -/
theorem place_follows {base : Nat} {P : Path → Prop} {key : Value} {v : Linked}
    (hv : Within base v) (segments : List Segment) :
    ∀ {place q i node a}, segments ≠ [] → Stage base place P q i node a →
      (∀ p, P p → p.begins (q ++ Segment.steps key segments) = false) →
      (v.isContainer = true → ∀ p, segments.mapM (Segment.step key) = .ok p → P (q ++ p)) →
        Follows base place P q i a (Value.place key segments node.plain v.plain)
          (Assembly.place key v segments node a) := by
  induction segments with
  | nil => exact fun h => absurd rfl h
  | cons segment rest ih =>
    intro place q i node a _ h hbegins hstored
    cases hstep : segment.step key with
    | error e =>
      obtain ⟨hplain, hlinked⟩ := place_unread hstep rest v node a
      rw [hplain, hlinked]
      exact follows_fault ..
    | ok s =>
      cases rest with
      | nil =>
        refine h.follows_last hstep hv fun hcontainer => hstored hcontainer [s] ?_
        exact Segment.mapM_step_eq_ok_iff.2 ⟨s, [], hstep, rfl, rfl⟩
      | cons next rest =>
        rw [Segment.steps_cons hstep, List.append_cons] at hbegins
        have hstored' : v.isContainer = true → ∀ p,
            (next :: rest).mapM (Segment.step key) = .ok p → P ((q ++ [s]) ++ p) := by
          intro hcontainer p hp
          rw [List.append_assoc]
          exact hstored hcontainer _ (Segment.mapM_step_eq_ok_iff.2 ⟨s, p, hstep, hp, rfl⟩)
        rw [Value.place, Assembly.place, hstep]
        dsimp only
        rw [Linked.into?_plain h.within]
        cases hinto : node.into? s with
        | none =>
          dsimp only [Option.map_none]
          have hplain := (Linked.emptyFor_spec a.next next).2.2.2.2
          rw [← hplain, Linked.set_plain h.within]
          cases hset : node.set s (Linked.emptyFor a.next next) with
          | error e => exact follows_fault ..
          | ok made =>
            exact h.follows_made hset
              (ih (List.cons_ne_nil _ _) (h.make hset) hbegins hstored')
        | some child =>
          dsimp only [Option.map_some]
          obtain ⟨hchild, -⟩ := Linked.into?_eq_some_iff.1 hinto
          rw [(h.within.child hchild).isContainer_plain]
          by_cases hcontainer : child.isContainer = true
          · rw [if_pos hcontainer, if_pos hcontainer]
            cases h.grown.child h.id_eq h.le_id hchild with
            | made hid hbase hplace hkeyed hall =>
              exact h.follows_into hchild hid hbase
                (ih (List.cons_ne_nil _ _) (h.enter hchild hid hbase) hbegins hstored')
            | stored hwithin hput =>
              obtain ⟨e, hnext⟩ := exists_error_of_begins (hput hcontainer) hbegins
              obtain ⟨hplain, hlinked⟩ := place_unread hnext rest v child a
              rw [hplain, hlinked]
              exact follows_fault ..
          · rw [if_neg hcontainer, if_neg hcontainer]
            exact follows_fault ..

/-- The data as a whole are at work. -/
theorem stage_root {base : Nat} {place : Nat → Path} {P : Path → Prop} {a : Assembly}
    (hid : a.root.id? = some base) (hgrown : Grown base place P [] a.root) (hwithin : Within a.next a.root)
    (hnext : base ≤ a.next)
    (hparams : ∀ j new, base ≤ j → a.params.mapValues (Linked.renew j new) = a.params) :
    Stage base place P [] base a.root a :=
  ⟨hid, Nat.le_refl _, hgrown, hwithin, hnext, hwithin, hparams,
    fun _ _ _ _ => (Linked.renew_self hid _).symm⟩

/-- Putting one parameter into the data. -/
theorem Stage.put_follows {base : Nat} {place : Nat → Path} {P : Path → Prop} {a : Assembly}
    (h : Stage base place P [] base a.root a) {o : DelimiterOptions} {key : Value} {l : Linked}
    {segments : List Segment} (hsplit : o.split key = .ok segments) (hl : Within base l)
    (hbegins : ∀ p, P p → p.begins (o.path key) = false)
    (hstored : l.plain.isContainer = true → ∀ p, o.Reads key p → P p) :
    (Assembly.place key l segments a.root a).1.params = a.params ∧
      (Assembly.place key l segments a.root a).2 =
        (Value.place key segments a.root.plain l.plain).2 ∧
      ((Assembly.place key l segments a.root a).2 = none →
        (Assembly.place key l segments a.root a).1.root.plain =
            (Value.place key segments a.root.plain l.plain).1 ∧
          ∃ place', Stage base place' P [] base (Assembly.place key l segments a.root a).1.root
            (Assembly.place key l segments a.root a).1) := by
  cases segments with
  | nil => exact ⟨rfl, rfl, fun _ => ⟨rfl, place, h⟩⟩
  | cons segment rest =>
    rw [hl.isContainer_plain] at hstored
    have hbegins' : ∀ p, P p → p.begins ([] ++ Segment.steps key (segment :: rest)) = false := by
      intro p hp
      rw [List.nil_append, ← DelimiterOptions.path_of_split hsplit]
      exact hbegins p hp
    obtain ⟨hfault, hparams, hnext, hgrown⟩ := place_follows hl (segment :: rest)
      (List.cons_ne_nil _ _) h hbegins' fun hcontainer p hp => hstored hcontainer p ⟨_, hsplit, hp⟩
    refine ⟨hparams, hfault, fun hnone => ?_⟩
    obtain ⟨node', place', hroot, hid, hplain, hgrown', hwithin, -⟩ := hgrown hnone
    rw [Linked.renew_self h.id_eq] at hroot
    rw [← hroot] at hid hplain hgrown' hwithin
    exact ⟨hplain, place', stage_root hid hgrown' hwithin (Nat.le_trans h.le_next hnext)
      (hparams ▸ h.params)⟩

/-- What building comes to: the data without numbers, or the fault that has stopped it. -/
def result (r : Assembly × Option Fault) : Except Fault Value :=
  match r.2 with
  | some e => .error e
  | none => .ok r.1.root.plain

/-- Putting in parameters goes as building does without links and leaves the parameters alone, if the
containers among them are put in at paths that begin no other one. -/
theorem putAll_follows {o : DelimiterOptions} {base : Nat} {P : Path → Prop} {es : Entries Value} :
    ∀ {a : Assembly} {place : Nat → Path}, Stage base place P [] base a.root a →
      (∀ e ∈ es, ∃ l, a.params.lookup e.1 = some l ∧ l.plain = e.2 ∧ Within base l) →
      (∀ e ∈ es, ∀ p, P p → p.begins (o.path e.1) = false) →
      (∀ e ∈ es, e.2.isContainer = true → ∀ p, o.Reads e.1 p → P p) →
        (putAll o es.keys a).1.params = a.params ∧
          result (putAll o es.keys a) = o.buildOn a.root.plain es := by
  induction es with
  | nil => exact fun _ _ _ _ => ⟨rfl, rfl⟩
  | cons e rest ih =>
    intro a place h hlinks hbegins hstored
    obtain ⟨key, v⟩ := e
    obtain ⟨⟨l, hl, rfl, hwithin⟩, hlinks'⟩ := List.forall_mem_cons.1 hlinks
    obtain ⟨hbegin, hbegins'⟩ := List.forall_mem_cons.1 hbegins
    obtain ⟨hstore, hstored'⟩ := List.forall_mem_cons.1 hstored
    change (putAll o (key :: Entries.keys rest) a).1.params = _ ∧
      result (putAll o (key :: Entries.keys rest) a) = o.buildOn a.root.plain ((key, l.plain) :: rest)
    rw [DelimiterOptions.buildOn, putAll, put, hl]
    cases hsplit : o.split key with
    | error e => exact ⟨rfl, rfl⟩
    | ok segments =>
      dsimp only [bind, Except.bind]
      obtain ⟨hsame, hfault, hgrown⟩ := h.put_follows hsplit hwithin hbegin hstore
      cases hlinked : Assembly.place key l segments a.root a with
      | mk a' fault =>
        cases hvalue : Value.place key segments a.root.plain l.plain with
        | mk value fault' =>
          rw [hlinked] at hsame hfault hgrown
          rw [hvalue] at hfault hgrown
          obtain rfl : fault = fault' := hfault
          cases fault with
          | some e => exact ⟨hsame, rfl⟩
          | none =>
            obtain ⟨rfl, place', hstage⟩ := hgrown rfl
            have hsame' : a'.params = a.params := hsame
            obtain ⟨hparams, hbuilt⟩ := ih hstage (hsame' ▸ hlinks') hbegins' hstored'
            exact ⟨hparams.trans hsame', hbuilt⟩

end Assembly

end ParamCheck
