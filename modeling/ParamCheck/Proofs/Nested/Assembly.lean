import ParamCheck.Proofs.Nested.Made

/-!
# What building keeps

While nested data are being built, the parameters stand under the keys that they stood under
(`Sharing.keys_build`), and the numbers of all containers are below the next one
(`Assembly.Bounded.putAll`).
-/

namespace ParamCheck

open Linked (Within)

namespace Assembly

/-- A container that changes is in the parameters under the keys that it was. -/
theorem keys_renew (a : Assembly) (new : Linked) : (a.renew new).params.keys = a.params.keys := by
  unfold renew
  split
  · rfl
  · exact Entries.keys_mapValues _ _

/-- Putting in a value keeps the keys of the parameters. -/
theorem keys_place (key : Value) (v : Linked) (segments : List Segment) :
    ∀ (node : Linked) (a : Assembly),
      (place key v segments node a).1.params.keys = a.params.keys := by
  induction segments with
  | nil => exact fun _ _ => rfl
  | cons segment rest ih =>
    intro node a
    cases rest with
    | nil =>
      unfold place
      split
      · rfl
      · exact keys_renew a _
    | cons next rest =>
      unfold place
      split
      · rfl
      · split
        · split
          · exact ih _ a
          · rfl
        · dsimp only
          split
          · rfl
          · rw [ih, keys_renew]

/-- Putting in parameters keeps the keys of the parameters. -/
theorem keys_putAll (o : DelimiterOptions) (keys : List Value) :
    ∀ a : Assembly, (putAll o keys a).1.params.keys = a.params.keys := by
  have hput : ∀ (a : Assembly) (key : Value), (a.put o key).1.params.keys = a.params.keys := by
    intro a key
    unfold put
    split
    · rfl
    · rfl
    · exact keys_place key _ _ _ a
  induction keys with
  | nil => exact fun _ => rfl
  | cons key rest ih =>
    intro a
    have hkey := hput a key
    unfold putAll
    split
    · next a' ha =>
      rw [ha] at hkey
      rw [ih a', hkey]
    · next a' e ha =>
      rw [ha] at hkey
      exact hkey

/-- The containers of data that are being built, and of the parameters, have numbers that are used up. -/
structure Bounded (a : Assembly) : Prop where
  root : Within a.next a.root
  params : ∀ e ∈ a.params, Within a.next e.2

variable {a : Assembly}

/-- A container that changes keeps to the numbers that are used up. -/
theorem Bounded.renew (h : a.Bounded) {new : Linked} (hnew : Within a.next new) : (a.renew new).Bounded := by
  unfold Assembly.renew
  split
  · exact h
  · refine ⟨h.root.renew hnew _, fun e he => ?_⟩
    obtain ⟨f, hf, rfl⟩ := List.mem_map.1 he
    exact (h.params f hf).renew hnew _

/-- A container that changes uses up no number. -/
theorem next_renew (a : Assembly) (new : Linked) : (a.renew new).next = a.next := by
  unfold renew
  split <;> rfl

/-- Putting in a value keeps to the numbers that are used up. -/
theorem Bounded.place (key : Value) {v : Linked} (segments : List Segment) :
    ∀ {a : Assembly} {node : Linked}, a.Bounded → Within a.next node → Within a.next v →
      (place key v segments node a).1.Bounded := by
  induction segments with
  | nil => exact fun h _ _ => h
  | cons segment rest ih =>
    intro a node h hnode hv
    cases rest with
    | nil =>
      unfold Assembly.place
      split
      · exact h
      · next node' hset =>
        obtain ⟨s, -, hset⟩ := bind_eq_ok_iff.1 hset
        exact h.renew (hnode.set hv hset)
    | cons next rest =>
      unfold Assembly.place
      split
      · exact h
      · next s hstep =>
        split
        · next child hinto =>
          obtain ⟨hchild, -⟩ := Linked.into?_eq_some_iff.1 hinto
          split
          · exact ih h (hnode.child hchild) hv
          · exact h
        · dsimp only
          split
          · exact h
          · next made hset =>
            obtain ⟨-, -, -, hempty, -⟩ := Linked.emptyFor_spec a.next next
            have hle := Nat.le_succ a.next
            have hmore : Bounded { a with next := a.next + 1 } :=
              ⟨h.root.mono hle, fun e he => (h.params e he).mono hle⟩
            have hnext := next_renew { a with next := a.next + 1 } made
            exact ih (hmore.renew ((hnode.mono hle).set hempty hset)) (hnext ▸ hempty)
              (hnext ▸ hv.mono hle)

/-- Putting in parameters keeps to the numbers that are used up. -/
theorem Bounded.putAll (o : DelimiterOptions) (keys : List Value) :
    ∀ {a : Assembly}, a.Bounded → (putAll o keys a).1.Bounded := by
  induction keys with
  | nil => exact fun h => h
  | cons key rest ih =>
    intro a h
    have hput : (a.put o key).1.Bounded := by
      unfold put
      split
      · exact h
      · exact h
      · next v segments hv _ =>
        obtain ⟨k, hk, -⟩ := Entries.exists_mem_of_lookup hv
        exact Bounded.place key segments h h.root (h.params _ hk)
    unfold Assembly.putAll
    split
    · next a' ha =>
      rw [ha] at hput
      exact ih hput
    · next a' e ha =>
      rw [ha] at hput
      exact hput

end Assembly

/-- Building nested data keeps the keys of the parameters. -/
theorem Sharing.keys_build (s : Sharing) (o : DelimiterOptions) (params : Entries Value) :
    (s.build o params).params.keys = params.keys := by
  show Entries.keys (Entries.mapValues _ _) = _
  rw [Entries.keys_mapValues, Assembly.keys_putAll]
  show Entries.keys (List.map _ params) = _
  unfold Entries.keys
  rw [List.map_map]
  rfl

end ParamCheck
