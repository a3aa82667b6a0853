import Mathlib.Tactic.Common
import ParamCheck.Fault

/-!
# Computations that return

Resolving declarations and running checks are computations that may fail and that keep their state
when they do. `Returns x s a t` says that `x`, started in the state `s`, does not fail, gives `a`
and leaves the state `t`; the lemmas take such a fact about a computation apart into facts about
its steps. `Settles x s` says no more than that `x`, started in `s`, does not fail. `Leaves x s P`
says that `x`, started in `s`, leaves a state with the property `P`, whether it fails or not, and
`Yields x P` that `x` fails for nothing but a fault without words and gives something with the property
`P`; the lemmas put such facts together.
-/

namespace ParamCheck

variable {σ α β : Type}

/-- Two computations without state give a result if the first one does and then the second. -/
theorem bind_eq_ok_iff {x : Except Fault α} {f : α → Except Fault β} {b : β} :
    (x >>= f) = .ok b ↔ ∃ a, x = .ok a ∧ f a = .ok b := by
  cases x with
  | ok a =>
    constructor
    · intro h
      exact ⟨a, rfl, h⟩
    · rintro ⟨a', ha, h⟩
      obtain rfl := Except.ok.inj ha
      exact h
  | error e =>
    constructor
    · intro h
      cases h
    · rintro ⟨a, ha, -⟩
      cases ha

/-- Two computations without state fail if the first one does, or if it gives a result and the second one
fails. -/
theorem bind_eq_error_iff {x : Except Fault α} {f : α → Except Fault β} {e : Fault} :
    (x >>= f) = .error e ↔ x = .error e ∨ ∃ a, x = .ok a ∧ f a = .error e := by
  cases x with
  | ok a =>
    refine ⟨fun h => .inr ⟨a, rfl, h⟩, ?_⟩
    rintro (h | ⟨a', ha, h⟩)
    · cases h
    · obtain rfl := Except.ok.inj ha
      exact h
  | error e' =>
    refine ⟨fun h => .inl (congrArg Except.error (Except.error.inj h)), ?_⟩
    rintro (h | ⟨a, ha, -⟩)
    · exact congrArg Except.error (Except.error.inj h)
    · cases ha

/-- A computation without state whose result is mapped gives a result if it gives one itself. -/
theorem map_eq_ok_iff {x : Except Fault α} {f : α → β} {b : β} :
    x.map f = .ok b ↔ ∃ a, x = .ok a ∧ f a = b := by
  cases x with
  | ok a =>
    constructor
    · intro h
      exact ⟨a, rfl, Except.ok.inj h⟩
    · rintro ⟨a', ha, rfl⟩
      obtain rfl := Except.ok.inj ha
      rfl
  | error e =>
    constructor
    · intro h
      cases h
    · rintro ⟨a, ha, -⟩
      cases ha

/-- A computation without state whose result is mapped fails if it fails itself. -/
theorem map_eq_error_iff {x : Except Fault α} {f : α → β} {e : Fault} :
    x.map f = .error e ↔ x = .error e := by
  cases x with
  | ok a =>
    constructor
    · intro h
      cases h
    · intro h
      cases h
  | error e' =>
    constructor
    · intro h
      exact congrArg Except.error (Except.error.inj h)
    · intro h
      exact congrArg Except.error (Except.error.inj h)

/-- A computation without state that has the result `a` gives it. -/
theorem ok_of_toOption {x : Except Fault α} {a : α} (h : x.toOption = some a) : x = .ok a := by
  cases x with
  | ok b => exact congrArg Except.ok (Option.some.inj h)
  | error e => cases h

/-- A computation without state that has no result fails. -/
theorem error_of_toOption {x : Except Fault α} (h : x.toOption = none) : ∃ e, x = .error e := by
  cases x with
  | ok a => cases h
  | error e => exact ⟨e, rfl⟩

/-- The computation, started in the state `s`, gives `a` and leaves the state `t`. -/
def Returns (x : ExceptT Fault (StateM σ) α) (s : σ) (a : α) (t : σ) : Prop :=
  x.run s = (.ok a, t)

/-- The computation, started in the state `s`, does not fail. -/
def Settles (x : ExceptT Fault (StateM σ) α) (s : σ) : Prop := ∃ a t, Returns x s a t

/-- The computation, started in the state `s`, leaves a state with the property, even if it
fails. -/
def Leaves (x : ExceptT Fault (StateM σ) α) (s : σ) (P : σ → Prop) : Prop := P (x.run s).2

/-- The computation fails for nothing but a fault that cannot be put into words, and what it gives has
the property. -/
def Yields (x : ExceptT Fault (StateM σ) α) (P : α → Prop) : Prop :=
  ∀ s, match (x.run s).1 with
    | .ok a => P a
    | .error e => e.isWritable = false

/-- Of two computations in a row, the second one runs if the first one does not fail. -/
theorem run_bind (x : ExceptT Fault (StateM σ) α) (f : α → ExceptT Fault (StateM σ) β) (s : σ) :
    (x >>= f).run s =
      match x.run s with
      | (.ok a, u) => (f a).run u
      | (.error e, u) => (.error e, u) := by
  show (ExceptT.bind x f) s = _
  unfold ExceptT.bind ExceptT.mk ExceptT.bindCont
  simp only [bind, StateT.bind, ExceptT.run]
  rcases hx : x s with ⟨r, u⟩
  cases r <;> rfl

/-- Two computations in a row fail if the first one does, or if it returns and the second one
fails. -/
theorem run_bind_eq_error_iff {x : ExceptT Fault (StateM σ) α} {f : α → ExceptT Fault (StateM σ) β}
    {s t : σ} {e : Fault} :
    (x >>= f).run s = (.error e, t) ↔
      x.run s = (.error e, t) ∨ ∃ a u, Returns x s a u ∧ (f a).run u = (.error e, t) := by
  rw [run_bind]
  unfold Returns
  rcases x.run s with ⟨result, u⟩
  cases result with
  | ok a =>
    constructor
    · intro h
      exact .inr ⟨a, u, rfl, h⟩
    · rintro (h | ⟨a', u', heq, h⟩)
      · cases congrArg Prod.fst h
      · cases heq
        exact h
  | error e' =>
    constructor
    · intro h
      obtain ⟨he, rfl⟩ := Prod.mk.inj h
      obtain rfl := Except.error.inj he
      exact .inl rfl
    · rintro (h | ⟨a', u', heq, -⟩)
      · obtain ⟨he, rfl⟩ := Prod.mk.inj h
        obtain rfl := Except.error.inj he
        rfl
      · cases congrArg Prod.fst heq

/-- A computation whose result is mapped fails if it does so itself, and leaves the same state. -/
theorem run_map (f : α → β) (x : ExceptT Fault (StateM σ) α) (s : σ) :
    (f <$> x).run s = ((x.run s).1.map f, (x.run s).2) := by
  rw [map_eq_pure_bind, run_bind]
  rcases x.run s with ⟨r, u⟩
  cases r <;> rfl

namespace Returns

/-- A value that is given at once leaves the state as it is. -/
@[simp] theorem pure_iff {a b : α} {s t : σ} :
    Returns (pure a : ExceptT Fault (StateM σ) α) s b t ↔ a = b ∧ s = t := by
  unfold Returns
  constructor
  · intro h
    exact ⟨Except.ok.inj (congrArg Prod.fst h), congrArg Prod.snd h⟩
  · rintro ⟨rfl, rfl⟩
    rfl

/-- A failure returns nothing. -/
@[simp] theorem throw_iff {e : Fault} {b : α} {s t : σ} :
    Returns (throw e : ExceptT Fault (StateM σ) α) s b t ↔ False := by
  unfold Returns
  constructor
  · intro h
    cases congrArg Prod.fst h
  · exact False.elim

/-- Two computations in a row return if the first returns and then the second. -/
@[simp] theorem bind_iff {x : ExceptT Fault (StateM σ) α} {f : α → ExceptT Fault (StateM σ) β}
    {b : β} {s t : σ} :
    Returns (x >>= f) s b t ↔ ∃ a u, Returns x s a u ∧ Returns (f a) u b t := by
  unfold Returns
  rw [run_bind]
  rcases x.run s with ⟨r, u⟩
  cases r with
  | ok a =>
    constructor
    · intro h
      exact ⟨a, u, rfl, h⟩
    · rintro ⟨a', u', heq, h⟩
      cases heq
      exact h
  | error e =>
    constructor
    · intro h
      cases congrArg Prod.fst h
    · rintro ⟨a', u', heq, -⟩
      cases congrArg Prod.fst heq

/-- The state can be looked at. -/
@[simp] theorem get_iff {r s t : σ} :
    Returns (get : ExceptT Fault (StateM σ) σ) s r t ↔ s = r ∧ s = t := by
  unfold Returns
  constructor
  · intro h
    exact ⟨Except.ok.inj (congrArg Prod.fst h), congrArg Prod.snd h⟩
  · rintro ⟨rfl, rfl⟩
    rfl

/-- What follows a look at the state. -/
theorem get_bind_iff {f : σ → ExceptT Fault (StateM σ) β} {b : β} {s t : σ} :
    Returns (get >>= f) s b t ↔ Returns (f s) s b t := by
  rw [bind_iff]
  constructor
  · rintro ⟨r, u, hget, h⟩
    obtain ⟨rfl, rfl⟩ := get_iff.1 hget
    exact h
  · intro h
    exact ⟨s, s, get_iff.2 ⟨rfl, rfl⟩, h⟩

/-- The state can be replaced. -/
@[simp] theorem set_iff {r s t : σ} {u : PUnit} :
    Returns (set r : ExceptT Fault (StateM σ) PUnit) s u t ↔ r = t := by
  unfold Returns
  constructor
  · intro h
    exact congrArg Prod.snd h
  · rintro rfl
    rfl

/-- The state can be changed. -/
@[simp] theorem modify_iff {f : σ → σ} {s t : σ} {u : PUnit} :
    Returns (modify f : ExceptT Fault (StateM σ) PUnit) s u t ↔ f s = t := by
  unfold Returns
  constructor
  · intro h
    exact congrArg Prod.snd h
  · rintro rfl
    rfl

/-- A computation without state returns if it does not fail. -/
@[simp] theorem liftM_iff {x : Except Fault α} {a : α} {s t : σ} :
    Returns (liftM x : ExceptT Fault (StateM σ) α) s a t ↔ x = .ok a ∧ s = t := by
  unfold Returns
  cases x with
  | ok b =>
    constructor
    · intro h
      exact ⟨congrArg Prod.fst h, congrArg Prod.snd h⟩
    · rintro ⟨h, rfl⟩
      cases h
      rfl
  | error e =>
    constructor
    · intro h
      cases congrArg Prod.fst h
    · rintro ⟨h, -⟩
      cases h

/-- Computations without state return in a row if none of them fails. -/
@[simp] theorem mapM_liftM_iff {f : α → Except Fault β} {as : List α} {bs : List β} {s t : σ} :
    Returns (as.mapM fun a => (liftM (f a) : ExceptT Fault (StateM σ) β)) s bs t ↔
      as.mapM f = .ok bs ∧ s = t := by
  induction as generalizing bs s t with
  | nil =>
    rw [List.mapM_nil, List.mapM_nil, pure_iff]
    exact and_congr_left fun _ => ⟨congrArg Except.ok, Except.ok.inj⟩
  | cons a rest ih =>
    rw [List.mapM_cons, List.mapM_cons]
    simp only [bind_iff, liftM_iff, ih, pure_iff]
    constructor
    · rintro ⟨b, u, ⟨hb, rfl⟩, bs', w, ⟨hbs', rfl⟩, rfl, rfl⟩
      refine ⟨?_, rfl⟩
      rw [hb, hbs']
      rfl
    · rintro ⟨h, rfl⟩
      cases hb : f a with
      | error e =>
        rw [hb] at h
        cases h
      | ok b =>
        cases hbs' : rest.mapM f with
        | error e =>
          rw [hb, hbs'] at h
          cases h
        | ok bs' =>
          rw [hb, hbs'] at h
          exact ⟨b, s, ⟨rfl, rfl⟩, bs', s, ⟨rfl, rfl⟩, Except.ok.inj h, rfl⟩

/-- After a computation that returns, the one that follows it runs. -/
theorem run_bind {x : ExceptT Fault (StateM σ) α} {f : α → ExceptT Fault (StateM σ) β} {a : α}
    {s t : σ} (h : Returns x s a t) : (x >>= f).run s = (f a).run t := by
  unfold Returns at h
  rw [ParamCheck.run_bind, h]

/-- A computation returns in one way only. -/
theorem unique {x : ExceptT Fault (StateM σ) α} {a b : α} {s t u : σ} (h : Returns x s a t)
    (h' : Returns x s b u) : a = b ∧ t = u := by
  obtain ⟨hresult, hstate⟩ := Prod.mk.inj (Eq.trans (Eq.symm h) h')
  exact ⟨Except.ok.inj hresult, hstate⟩

/-- A computation that returns leaves the state that it returns with. -/
theorem leaves_iff {x : ExceptT Fault (StateM σ) α} {a : α} {s t : σ} {P : σ → Prop}
    (h : Returns x s a t) : Leaves x s P ↔ P t := by
  unfold Leaves
  rw [h]

end Returns

namespace Settles

/-- A value that is given at once. -/
theorem pure (a : α) (s : σ) : Settles (Pure.pure a : ExceptT Fault (StateM σ) α) s := ⟨a, s, rfl⟩

/-- A failure. -/
theorem not_throw (e : Fault) (s : σ) :
    ¬Settles (MonadExcept.throw e : ExceptT Fault (StateM σ) α) s :=
  fun ⟨_, _, h⟩ => Returns.throw_iff.1 h

/-- Of two computations in a row neither fails. -/
theorem bind_iff {x : ExceptT Fault (StateM σ) α} {f : α → ExceptT Fault (StateM σ) β} {s : σ} :
    Settles (x >>= f) s ↔ ∃ a t, Returns x s a t ∧ Settles (f a) t := by
  unfold Settles
  simp only [Returns.bind_iff]
  constructor
  · rintro ⟨b, u, a, t, hx, hf⟩
    exact ⟨a, t, hx, b, u, hf⟩
  · rintro ⟨a, t, hx, b, u, hf⟩
    exact ⟨b, u, a, t, hx, hf⟩

/-- What follows a look at the state does not fail. -/
theorem get_bind_iff {f : σ → ExceptT Fault (StateM σ) β} {s : σ} :
    Settles (get >>= f) s ↔ Settles (f s) s := by
  unfold Settles
  simp only [Returns.get_bind_iff]

/-- A computation without state does not fail. -/
theorem liftM_iff {x : Except Fault α} {s : σ} :
    Settles (liftM x : ExceptT Fault (StateM σ) α) s ↔ ∃ a, x = .ok a := by
  unfold Settles
  simp only [Returns.liftM_iff]
  constructor
  · rintro ⟨a, _, ha, -⟩
    exact ⟨a, ha⟩
  · rintro ⟨a, ha⟩
    exact ⟨a, s, ha, rfl⟩

end Settles

namespace Leaves

variable {P : σ → Prop} {s : σ}

/-- A value that is given at once leaves the state as it is. -/
@[simp] theorem pure_iff {a : α} : Leaves (pure a : ExceptT Fault (StateM σ) α) s P ↔ P s := Iff.rfl

/-- A failure leaves the state as it is. -/
@[simp] theorem throw_iff {e : Fault} :
    Leaves (throw e : ExceptT Fault (StateM σ) α) s P ↔ P s := Iff.rfl

/-- Of two computations in a row, the first one leaves a state with the property, and so does the
second one after the first one has returned. -/
theorem bind {x : ExceptT Fault (StateM σ) α} {f : α → ExceptT Fault (StateM σ) β}
    (hx : Leaves x s P) (hf : ∀ a u, Returns x s a u → P u → Leaves (f a) u P) :
    Leaves (x >>= f) s P := by
  unfold Leaves at hx ⊢
  rw [run_bind]
  -- If the first one fails, the state that it leaves is the last one.
  rcases hrun : x.run s with ⟨r, u⟩
  rw [hrun] at hx
  cases r with
  | ok a => exact hf a u hrun hx
  | error e => exact hx

/-- What follows a look at the state. -/
theorem get_bind {f : σ → ExceptT Fault (StateM σ) β} (h : Leaves (f s) s P) :
    Leaves (get >>= f) s P := by
  unfold Leaves at h ⊢
  rw [run_bind]
  exact h

/-- What follows a change of the state. -/
theorem modify_bind {g : σ → σ} {f : PUnit → ExceptT Fault (StateM σ) β} (h : Leaves (f ⟨⟩) (g s) P) :
    Leaves (modify g >>= f) s P := by
  unfold Leaves at h ⊢
  rw [run_bind]
  exact h

/-- The state can be replaced. -/
@[simp] theorem set_iff {r : σ} :
    Leaves (set r : ExceptT Fault (StateM σ) PUnit) s P ↔ P r := Iff.rfl

/-- The state can be changed. -/
@[simp] theorem modify_iff {f : σ → σ} :
    Leaves (modify f : ExceptT Fault (StateM σ) PUnit) s P ↔ P (f s) := Iff.rfl

/-- A computation without state leaves the state as it is. -/
@[simp] theorem liftM_iff {x : Except Fault α} :
    Leaves (liftM x : ExceptT Fault (StateM σ) α) s P ↔ P s := by
  cases x <;> exact Iff.rfl

/-- Computations in a row leave a state with a property that each of them keeps. -/
theorem mapM {f : α → ExceptT Fault (StateM σ) β} (hf : ∀ a s, P s → Leaves (f a) s P)
    (as : List α) : ∀ {s}, P s → Leaves (as.mapM f) s P := by
  induction as with
  | nil =>
    intro s h
    rw [List.mapM_nil]
    exact h
  | cons a rest ih =>
    intro s h
    rw [List.mapM_cons]
    refine bind (hf a s h) fun b u _ hu => ?_
    exact bind (ih hu) fun bs w _ hw => hw

end Leaves

namespace Yields

variable {P : α → Prop} {Q : β → Prop}

/-- A value that is given at once. -/
theorem pure {a : α} (h : P a) : Yields (Pure.pure a : ExceptT Fault (StateM σ) α) P := fun _ => h

/-- What is given has every property that follows. -/
theorem imp {x : ExceptT Fault (StateM σ) α} {P' : α → Prop} (h : Yields x P)
    (hP : ∀ a, P a → P' a) : Yields x P' := by
  intro s
  have hs := h s
  cases hx : (x.run s).1 with
  | ok a =>
    rw [hx] at hs
    exact hP a hs
  | error e =>
    rw [hx] at hs
    exact hs

/-- Two computations in a row. -/
theorem bind {x : ExceptT Fault (StateM σ) α} {f : α → ExceptT Fault (StateM σ) β}
    (hx : Yields x P) (hf : ∀ a, P a → Yields (f a) Q) : Yields (x >>= f) Q := by
  intro s
  have hs := hx s
  rw [run_bind]
  rcases hrun : x.run s with ⟨r, u⟩
  rw [hrun] at hs
  cases r with
  | ok a => exact hf a hs u
  | error e => exact hs

/-- A change of the state. -/
theorem modified {f : σ → σ} :
    Yields (modify f : ExceptT Fault (StateM σ) PUnit) fun _ => True := fun _ => trivial

end Yields

end ParamCheck
