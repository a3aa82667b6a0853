import ParamCheck.Journal
import ParamCheck.Proofs.Returns

/-!
# One computation under two policies

Under the lenient policy whatever is undeclared is passed over and reported; under a strict one it
is a fault. `Foretells x` says what the two have to do with one another when a computation starts
with an empty report: if the lenient one reports nothing, the strict one does the same, and otherwise
the strict one fails, for what the lenient one reports first. What a strict computation gives, every
policy gives. Nothing that is reported is taken back, so that this holds of two computations in a row
if it holds of each (`Foretells.bind`).
-/

namespace ParamCheck

/-- Whatever is undeclared is passed over and reported. -/
def Policy.lenient : Policy where
  ignoreUnknown := true
  reportUnknown := true

/-- Whatever is undeclared is a fault, which makes it all the same if it would be reported. -/
def Policy.strict (reportUnknown : Bool) : Policy where
  ignoreUnknown := false
  reportUnknown

variable {α β : Type}

/-- The lenient computation only adds to the report. If it starts with an empty one, then a strict
computation does the same if nothing is reported, and fails for the first thing that is reported. -/
structure Foretells (x : Policy → Journaled α) : Prop where
  grows : ∀ j, Leaves (x .lenient) j fun k => j.messages <+: k.messages
  agrees : ∀ report j, j.messages = [] → (((x .lenient).run j).2.messages = []) →
    (x (.strict report)).run j = (x .lenient).run j
  fails : ∀ report j m ms, j.messages = [] → ((x .lenient).run j).2.messages = m :: ms →
    ∃ fault text, ((x (.strict report)).run j).1 = .error fault ∧ fault.message? = some text ∧
      m = .str text
  passes : ∀ report p j a k, Returns (x (.strict report)) j a k → Returns (x p) j a k

namespace Foretells

/-- A computation that goes by no policy and reports nothing. -/
theorem const {x : Journaled α} (h : ∀ j, Leaves x j fun k => k.messages = j.messages) :
    Foretells fun _ => x where
  grows j := by
    have hx : (x.run j).2.messages = j.messages := h j
    exact ⟨[], by rw [List.append_nil, hx]⟩
  agrees _ _ _ _ := rfl
  fails report j m ms hj hx := by
    have hkeep : (x.run j).2.messages = j.messages := h j
    rw [hkeep, hj] at hx
    cases hx
  passes _ _ _ _ _ h := h

/-- A value that is given at once. -/
theorem pure (a : α) : Foretells fun _ => (Pure.pure a : Journaled α) := const fun _ => rfl

/-- A failure that no policy has to do with. -/
theorem throw (e : Fault) : Foretells fun _ => (MonadExcept.throw e : Journaled α) :=
  const fun _ => rfl

/-- A computation without a journal. -/
theorem lift (x : Except Fault α) : Foretells fun _ => (liftM x : Journaled α) :=
  const fun _ => Leaves.liftM_iff.2 rfl

/-- A note. -/
theorem note (n : Note) : Foretells fun _ => Journaled.note n := const fun _ => rfl

/-- What the lenient policy makes of something undeclared: it is reported, unless it has no words. -/
theorem run_unknown_lenient (fault : Fault) (j : Journal) :
    (Policy.lenient.unknown fault).run j =
      if fault.isWritable then
        (.ok (), { messages := Report.add j.messages (.str fault.message)
                   notes := j.notes ++ [.ignored fault] })
      else (.error fault, j) := by
  have hrun : (Policy.lenient.unknown fault).run j =
      (liftM (Policy.lenient.tolerate fault j) >>= set : Journaled Unit).run j := rfl
  have htolerate : Policy.lenient.tolerate fault j =
      if fault.isWritable then
        .ok { messages := Report.add j.messages (.str fault.message)
              notes := j.notes ++ [.ignored fault] }
      else .error fault := rfl
  rw [hrun, htolerate]
  split <;> rfl

/-- Something undeclared is reported if the strict policy fails for it. -/
theorem unknown {fault : Fault} {text : String} (h : fault.wording? = some text) :
    Foretells fun p => p.unknown fault where
  grows j := by
    show j.messages <+: ((Policy.lenient.unknown fault).run j).2.messages
    rw [run_unknown_lenient]
    split
    · show j.messages <+: Report.add j.messages (.str fault.message)
      unfold Report.add
      split
      · exact List.prefix_rfl
      · exact List.prefix_append _ _
    · exact List.prefix_rfl
  agrees report j hj hx := by
    rw [run_unknown_lenient] at hx ⊢
    split at hx
    · change Report.add j.messages (.str fault.message) = [] at hx
      rw [hj] at hx
      cases hx
    · next hwritable =>
      rw [if_neg hwritable]
      rfl
  fails report j m ms hj hx := by
    rw [run_unknown_lenient] at hx
    split at hx
    · next hwritable =>
      change Report.add j.messages (.str fault.message) = m :: ms at hx
      have hmessage : fault.message? = some text := by
        unfold Fault.message?
        rw [if_pos hwritable, h]
      rw [hj] at hx
      obtain ⟨rfl, -⟩ := List.cons.inj hx
      refine ⟨fault, text, rfl, hmessage, ?_⟩
      unfold Fault.message
      rw [hmessage, Option.getD_some]
    · change j.messages = m :: ms at hx
      cases hj.symm.trans hx
  passes report p j a k hx := by
    -- The strict policy lets nothing pass.
    cases congrArg Prod.fst hx

/-- Two computations in a row. -/
theorem bind {x : Policy → Journaled α} {f : Policy → α → Journaled β} (hx : Foretells x)
    (hf : ∀ a, Foretells fun p => f p a) : Foretells fun p => x p >>= f p where
  grows j := by
    refine Leaves.bind (hx.grows j) fun a u _ hu => ?_
    exact List.IsPrefix.trans hu ((hf a).grows u)
  agrees report j hj h := by
    rw [run_bind] at h
    rw [run_bind, run_bind]
    have hagrees := hx.agrees report j hj
    rcases hrun : (x .lenient).run j with ⟨r, u⟩
    rw [hrun] at h hagrees
    cases r with
    | error e => rw [hagrees h]
    | ok a =>
      -- What is not reported at the end was not reported on the way.
      have hgrows : u.messages <+: ((f .lenient a).run u).2.messages := (hf a).grows u
      have hu : u.messages = [] := by
        dsimp only at h
        rw [h] at hgrows
        exact List.prefix_nil.1 hgrows
      rw [hagrees hu]
      exact (hf a).agrees report u hu h
  fails report j m ms hj h := by
    rw [run_bind] at h
    rw [run_bind]
    have hagrees := hx.agrees report j hj
    have hfails := hx.fails report j
    rcases hrun : (x .lenient).run j with ⟨r, u⟩
    rw [hrun] at h hagrees hfails
    cases hu : u.messages with
    | nil =>
      rw [hagrees hu]
      cases r with
      | error e =>
        dsimp only at h
        rw [hu] at h
        cases h
      | ok a => exact (hf a).fails report u m ms hu h
    | cons m' ms' =>
      obtain ⟨fault, text, hstrict, htext, rfl⟩ := hfails m' ms' hj hu
      -- The first computation has failed already, for what stays first in the report.
      have hm : m = .str text := by
        cases r with
        | error e =>
          dsimp only at h
          rw [hu] at h
          exact (List.cons.inj h).1.symm
        | ok a =>
          have hgrows : u.messages <+: ((f .lenient a).run u).2.messages := (hf a).grows u
          dsimp only at h
          rw [h, hu] at hgrows
          exact (List.cons_prefix_cons.1 hgrows).1.symm
      rcases hs : (x (.strict report)).run j with ⟨r', u'⟩
      rw [hs] at hstrict
      change r' = .error fault at hstrict
      subst hstrict
      exact ⟨fault, text, rfl, htext, hm⟩
  passes report p j b k h := by
    obtain ⟨a, u, ha, hb⟩ := Returns.bind_iff.1 h
    exact Returns.bind_iff.2 ⟨a, u, hx.passes report p j a u ha, (hf a).passes report p u b k hb⟩

/-- A choice between two computations that no policy has to do with. -/
theorem ite {c : Prop} [Decidable c] {x y : Policy → Journaled α} (hx : Foretells x)
    (hy : Foretells y) : Foretells fun p => if c then x p else y p := by
  split
  · exact hx
  · exact hy

end Foretells

end ParamCheck
