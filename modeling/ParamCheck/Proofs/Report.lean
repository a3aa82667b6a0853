import Mathlib.Tactic.Common
import ParamCheck.Report

/-!
# Laws of the report

Messages that are added one after the other to an empty list are the messages without repetitions
(`addAll_nil`), and adding a message repeats none (`Unrepeated.add`). Recording a message changes
nothing of a field but its messages (`record_ok_iff`).
-/

namespace ParamCheck

namespace Value

/-- Items that are the same as themselves make up a sequence that is. -/
theorem sameItems_self {items : List Value} (h : ∀ v ∈ items, v.same v = true) :
    same.sameItems items items = true := by
  induction items with
  | nil => rfl
  | cons v rest ih =>
    obtain ⟨hv, hrest⟩ := List.forall_mem_cons.1 h
    rw [same.sameItems, hv, ih hrest]
    rfl

/-- Entries whose values are the same as themselves are among any entries that they belong to. -/
theorem sameEntries_of_subset {entries all : List (Value × Value)}
    (h : ∀ e ∈ entries, e.2.same e.2 = true) (hall : ∀ e ∈ entries, e ∈ all) :
    same.sameEntries entries all = true := by
  induction entries with
  | nil => rfl
  | cons e rest ih =>
    obtain ⟨k, v⟩ := e
    obtain ⟨hv, hrest⟩ := List.forall_mem_cons.1 h
    obtain ⟨hmem, hrestMem⟩ := List.forall_mem_cons.1 hall
    rw [same.sameEntries, ih hrest hrestMem, Bool.and_true, List.any_eq_true]
    exact ⟨(k, v), hmem, by simp [hv]⟩

/-- Every value is the same as itself. -/
theorem same_self : ∀ v : Value, v.same v = true
  | list items => by
    rw [same]
    exact sameItems_self fun v _ => same_self v
  | tuple items => by
    rw [same]
    exact sameItems_self fun v _ => same_self v
  | dict entries => by
    rw [same, beq_self_eq_true, Bool.true_and]
    refine sameEntries_of_subset (fun e he => ?_) fun _ he => he
    -- The value of an entry is smaller than the mapping that holds it.
    have hpair : sizeOf e.2 < sizeOf e := by
      obtain ⟨k, v⟩ := e
      show sizeOf v < sizeOf (k, v)
      rw [Prod.mk.sizeOf_spec]
      omega
    have hentry : sizeOf e < sizeOf entries := List.sizeOf_lt_of_mem he
    exact same_self e.2
  | delimiters hash array escape => by
    rw [same, same_self hash, same_self array, same_self escape]
    rfl
  | float x => by
    simp only [same, scalarKey?]
    cases x.toInt? <;> simp
  | set items => by
    rw [same]
    exact List.isPerm_iff.2 (.refl _)
  | null | bool _ | int _ | str _ | bytes _ | timestamp _ | regex .. | callback _ => by
    simp [same, scalarKey?]

/-- A value that is the same as a text is that text. -/
theorem eq_str_of_same {v : Value} {s : String} (h : v.same (.str s) = true) :
    v = .str s := by
  cases v with
  | str t =>
    have hkey : t = s := by simpa [Value.same, Value.scalarKey?] using h
    rw [hkey]
  | float x =>
    simp only [Value.same, Value.scalarKey?] at h
    cases hx : x.toInt? <;> simp [hx] at h
  | _ => simp [Value.same, Value.scalarKey?] at h

/-- A value that a text is the same as is that text. -/
theorem eq_of_str_same {v : Value} {s : String} (h : (str s).same v = true) : v = .str s := by
  cases v with
  | str t =>
    have hkey : s = t := by simpa [Value.same, Value.scalarKey?] using h
    rw [hkey]
  | float x =>
    simp only [Value.same, Value.scalarKey?] at h
    cases hx : x.toInt? <;> simp [hx] at h
  | _ => simp [Value.same, Value.scalarKey?] at h

end Value

namespace Report

/-! ## Adding messages -/

/-- No message is the same as one before it. -/
def Unrepeated (messages : List Value) : Prop := messages.Pairwise fun v w => w.same v = false

/-- Of the messages after one is added, all but that one were there before. -/
theorem mem_add {messages : List Value} {message m : Value} (h : m ∈ add messages message) :
    m ∈ messages ∨ m = message := by
  unfold add at h
  split at h
  · exact .inl h
  · exact (List.mem_append.1 h).imp id List.mem_singleton.1

/-- Messages stay when one is added. -/
theorem mem_add_of_mem {messages : List Value} {m : Value} (h : m ∈ messages) (message : Value) :
    m ∈ add messages message := by
  unfold add
  split
  · exact h
  · exact List.mem_append_left _ h

/-- A message that is added is there, maybe in another form. -/
theorem any_add (messages : List Value) (message : Value) :
    (add messages message).any message.same = true := by
  unfold add
  split
  · next h => exact h
  · rw [List.any_append, List.any_cons, message.same_self, Bool.true_or, Bool.or_true]

/-- There is a message once one is added. -/
theorem add_ne_nil (messages : List Value) (message : Value) : add messages message ≠ [] := by
  intro hnil
  have hany := any_add messages message
  rw [hnil] at hany
  cases hany

/-- Adding a message repeats none. -/
theorem Unrepeated.add {messages : List Value} (h : Unrepeated messages) (message : Value) :
    Unrepeated (add messages message) := by
  unfold Report.add
  split
  · exact h
  · next hnew =>
    -- A message is put at the end only if none of those before it is the same.
    refine List.pairwise_append.2 ⟨h, List.pairwise_singleton _ _, fun v hv w hw => ?_⟩
    obtain rfl := List.mem_singleton.1 hw
    have hfalse : messages.any (Value.same w) = false := by simpa using hnew
    simpa using List.any_eq_false.1 hfalse v hv

/-- Add messages one after the other. -/
def addAll (messages new : List Value) : List Value := new.foldl add messages

/-- Messages that are added to none are left without repetitions. -/
theorem addAll_nil (new : List Value) : addAll [] new = Value.unique new := rfl

/-- Messages can be added in two goes. -/
theorem addAll_append (messages new new' : List Value) :
    addAll messages (new ++ new') = addAll (addAll messages new) new' :=
  List.foldl_append

/-- Of the messages after some are added, all but these were there before. -/
theorem mem_addAll {new : List Value} {m : Value} :
    ∀ {messages}, m ∈ addAll messages new → m ∈ messages ∨ m ∈ new := by
  induction new with
  | nil => exact fun h => .inl h
  | cons n rest ih =>
    intro messages h
    have hrest : m ∈ addAll (add messages n) rest := h
    rcases ih hrest with hadd | hmem
    · rcases mem_add hadd with hmem | rfl
      · exact .inl hmem
      · exact .inr List.mem_cons_self
    · exact .inr (List.mem_cons_of_mem _ hmem)

/-- Adding messages repeats none. -/
theorem Unrepeated.addAll (new : List Value) :
    ∀ {messages}, Unrepeated messages → Unrepeated (addAll messages new) := by
  induction new with
  | nil => exact fun h => h
  | cons n rest ih => exact fun h => ih (h.add n)

/-- What is added to messages of which the same are known is put behind them alike. -/
theorem exists_addAll_eq_append (new : List Value) :
    ∀ {messages messages' : List Value},
      (∀ m : Value, messages.any m.same = messages'.any m.same) →
        ∃ tail, addAll messages new = messages ++ tail ∧ addAll messages' new = messages' ++ tail := by
  induction new with
  | nil => exact fun _ => ⟨[], (List.append_nil _).symm, (List.append_nil _).symm⟩
  | cons n rest ih =>
    intro messages messages' h
    have hn := h n
    show ∃ tail, addAll (add messages n) rest = _ ∧ addAll (add messages' n) rest = _
    unfold add
    rw [← hn]
    split
    · exact ih h
    · -- The message is new to both.
      have hboth : ∀ m : Value, (messages ++ [n]).any m.same = (messages' ++ [n]).any m.same := by
        intro m
        rw [List.any_append, List.any_append, h m]
      obtain ⟨tail, htail, htail'⟩ := ih hboth
      refine ⟨n :: tail, ?_, ?_⟩
      · rw [htail, List.append_assoc, List.singleton_append]
      · rw [htail', List.append_assoc, List.singleton_append]

/-- Messages of which none is repeated are all added. -/
theorem addAll_of_unrepeated {new : List Value} :
    ∀ {messages}, Unrepeated (messages ++ new) → addAll messages new = messages ++ new := by
  induction new with
  | nil => exact fun _ => (List.append_nil _).symm
  | cons n rest ih =>
    intro messages h
    have hnew : add messages n = messages ++ [n] := by
      unfold add
      refine if_neg ?_
      rw [Bool.not_eq_true, List.any_eq_false]
      intro m hm
      simpa using (List.pairwise_append.1 h).2.2 m hm n List.mem_cons_self
    show addAll (add messages n) rest = _
    rw [hnew, ih]
    · rw [List.append_assoc, List.singleton_append]
    · rw [List.append_assoc, List.singleton_append]
      exact h

/-- Messages of which none is repeated are put behind those that are there, without those that are
the same as one of them. -/
theorem addAll_eq_append_filter {new : List Value} (hnew : Unrepeated new) :
    ∀ messages, addAll messages new =
      messages ++ new.filter fun m => !messages.any m.same := by
  induction new with
  | nil => exact fun _ => (List.append_nil _).symm
  | cons n rest ih =>
    intro messages
    obtain ⟨hn, hrest⟩ := List.pairwise_cons.1 hnew
    show addAll (add messages n) rest = _
    rw [ih hrest, List.filter_cons]
    unfold add
    split
    · next h =>
      rw [h]
      rfl
    · next h =>
      rw [Bool.not_eq_true] at h
      rw [h, Bool.not_false, if_pos rfl, List.append_assoc, List.singleton_append]
      -- None of the later messages is the same as the first one.
      refine congrArg (messages ++ n :: ·) (List.filter_congr fun m hm => ?_)
      rw [List.any_append, List.any_cons, hn m hm, List.any_nil, Bool.or_false, Bool.or_false]

/-- A message of those that are added is there, maybe in another form. -/
theorem any_addAll {new : List Value} {m : Value} (hm : m ∈ new) :
    ∀ messages, (addAll messages new).any m.same = true := by
  induction new with
  | nil => exact absurd hm List.not_mem_nil
  | cons n rest ih =>
    intro messages
    rcases List.mem_cons.1 hm with rfl | hm
    · obtain ⟨tail, htail, -⟩ := exists_addAll_eq_append rest
        (fun w => (rfl : (add messages m).any w.same = (add messages m).any w.same))
      show (addAll (add messages m) rest).any m.same = true
      rw [htail, List.any_append, any_add, Bool.true_or]
    · exact ih hm _

/-- A message that can be recorded is a text that is not empty. -/
theorem record_ok_iff {f : Field} {messages : List Value} {message : Value}
    {r : Field × List Value} :
    record f messages message = .ok r ↔
      (∃ s, message = .str s ∧ s ≠ "") ∧
        r = ({ f with errors := add f.errors (effective f message) },
          add messages (effective f message)) := by
  constructor
  · intro h
    unfold record at h
    split at h
    · next s =>
      split at h
      · cases h
      · next hs => exact ⟨⟨s, rfl, hs⟩, (Except.ok.inj h).symm⟩
    · cases h
  · rintro ⟨⟨s, rfl, hs⟩, rfl⟩
    rw [record, if_neg hs]

/-- What is no text, or an empty one, cannot be recorded. -/
theorem record_eq_error {message : Value} (h : ¬∃ s, message = .str s ∧ s ≠ "") (f : Field)
    (messages : List Value) : record f messages message = .error .noErrorTarget := by
  unfold record
  split
  · next s =>
    split
    · rfl
    · next hne => exact absurd ⟨s, rfl, hne⟩ h
  · rfl

/-- Values without repetitions are different. -/
theorem Unrepeated.nodup {vs : List Value} (h : Unrepeated vs) : vs.Nodup := by
  refine h.imp fun {v w} hsame heq => ?_
  rw [heq, w.same_self] at hsame
  cases hsame

end Report

/-- No value without repetitions is the same as one before it. -/
theorem Value.pairwise_unique (vs : List Value) :
    (Value.unique vs).Pairwise fun v w => w.same v = false :=
  Report.Unrepeated.addAll vs List.Pairwise.nil

/-- No value is new when repetitions are left out. -/
theorem Value.mem_of_mem_unique {vs : List Value} {v : Value} (h : v ∈ Value.unique vs) : v ∈ vs :=
  (Report.mem_addAll h).resolve_left List.not_mem_nil

/-- Values that are texts are those of a list of texts. -/
theorem Value.exists_texts {vs : List Value} (h : ∀ v ∈ vs, ∃ s, v = Value.str s) :
    ∃ texts : List String, vs = texts.map .str := by
  induction vs with
  | nil => exact ⟨[], rfl⟩
  | cons v rest ih =>
    obtain ⟨⟨s, rfl⟩, hrest⟩ := List.forall_mem_cons.1 h
    obtain ⟨texts, rfl⟩ := ih hrest
    exact ⟨s :: texts, rfl⟩

/-- Values are texts if they are once repetitions are left out. -/
theorem Value.exists_texts_of_unique {vs : List Value} {names : List String}
    (h : Value.unique vs = names.map .str) : ∃ texts : List String, vs = texts.map .str := by
  refine Value.exists_texts fun v hv => ?_
  have hany : (Value.unique vs).any v.same = true := Report.any_addAll hv []
  rw [h, List.any_map, List.any_eq_true] at hany
  obtain ⟨s, -, hs⟩ := hany
  exact ⟨s, Value.eq_str_of_same hs⟩

end ParamCheck
