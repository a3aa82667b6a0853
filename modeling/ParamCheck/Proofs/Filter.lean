import ParamCheck.Proofs.Entries
import ParamCheck.Proofs.Returns
import ParamCheck.Stock

/-!
# Filters one after the other

A list of filters that is run value by value can be cut anywhere (`runFilterList_append`). A field runs its
filters on texts only, but it looks at the value once, before the first of them: in one go a filter can be
handed what is no text, and in two goes it is not run at all. `runFilters_append` says when the two are
the same all the same, and which values are handed to filters. While all filters make texts of texts, the
cut makes no difference, and nothing but texts is handed to any of them.
-/

namespace ParamCheck

/-- Whether a value is a text. -/
def Value.isText : Value → Bool
  | str _ => true
  | _ => false

variable (hook : FilterHook) (table : FilterTable)

/-- What the filters of a list make of a value, and the values that they are handed on the way. -/
def traceFilterList : List Value → Value → Except Fault Value × List Value
  | [], v => (.ok v, [])
  | entry :: rest, v =>
    match table.find entry with
    | .error e => (.error e, [])
    | .ok none => traceFilterList rest v
    | .ok (some f) =>
      match f.onValue hook v with
      | .error e => (.error e, [v])
      | .ok w => ((traceFilterList rest w).1, v :: (traceFilterList rest w).2)

/-- The values that filters are handed when they are run on a value. -/
def handed (entries : List Value) (v : Value) : List Value :=
  match v with
  | .str _ => (traceFilterList hook table entries v).2
  | _ => []

/-- The filter that an entry stands for, if any, makes texts of texts. -/
def FilterTable.KeepsTexts (entry : Value) : Prop :=
  ∀ f s w, table.find entry = .ok (some f) → f.onValue hook (.str s) = .ok w → w.isText = true

/-- Filters that are run in one go do what they do in two goes, and none of them is handed anything but
a text. -/
def RunsInSteps (fs gs : List Value) (v : Value) : Prop :=
  runFilters hook table (fs ++ gs) v = (runFilters hook table fs v >>= runFilters hook table gs) ∧
    ∀ w ∈ handed hook table (fs ++ gs) v, w.isText = true

variable {hook table}

/-! ## Lists of filters -/

/-- An entry that cannot be looked up fails. -/
theorem runFilterList_of_error {entry : Value} {e : Fault} (h : table.find entry = .error e)
    (rest : List Value) (v : Value) : runFilterList hook table (entry :: rest) v = .error e := by
  rw [runFilterList, h]
  rfl

/-- An entry that stands for nothing is passed over. -/
theorem runFilterList_of_none {entry : Value} (h : table.find entry = .ok none) (rest : List Value)
    (v : Value) : runFilterList hook table (entry :: rest) v = runFilterList hook table rest v := by
  rw [runFilterList, h]
  rfl

/-- A filter is run before the others. -/
theorem runFilterList_of_some {entry : Value} {f : Filter} (h : table.find entry = .ok (some f))
    (rest : List Value) (v : Value) :
    runFilterList hook table (entry :: rest) v =
      f.onValue hook v >>= runFilterList hook table rest := by
  rw [runFilterList, h]
  rfl

/-- A list of filters can be cut anywhere. -/
theorem runFilterList_append (fs gs : List Value) :
    ∀ v, runFilterList hook table (fs ++ gs) v =
      runFilterList hook table fs v >>= runFilterList hook table gs := by
  induction fs with
  | nil => exact fun _ => rfl
  | cons entry rest ih =>
    intro v
    rw [List.cons_append]
    cases hfind : table.find entry with
    | error e => rw [runFilterList_of_error hfind, runFilterList_of_error hfind]; rfl
    | ok found =>
      cases found with
      | none => rw [runFilterList_of_none hfind, runFilterList_of_none hfind, ih]
      | some f =>
        rw [runFilterList_of_some hfind, runFilterList_of_some hfind, bind_assoc]
        exact congrArg (f.onValue hook v >>= ·) (funext ih)

/-- Without the values that are handed on the way, the trace is the run. -/
theorem traceFilterList_fst (entries : List Value) :
    ∀ v, (traceFilterList hook table entries v).1 = runFilterList hook table entries v := by
  induction entries with
  | nil => exact fun _ => rfl
  | cons entry rest ih =>
    intro v
    cases hfind : table.find entry with
    | error e => rw [runFilterList_of_error hfind, traceFilterList, hfind]
    | ok found =>
      cases found with
      | none =>
        rw [runFilterList_of_none hfind, ← ih, traceFilterList, hfind]
      | some f =>
        rw [runFilterList_of_some hfind, traceFilterList, hfind]
        dsimp only
        cases hvalue : f.onValue hook v with
        | error e => rfl
        | ok w => exact ih w

/-- An entry of a list is the first one or stands behind it. -/
theorem exists_split_cons {α : Type} {a : α} {l : List α} {P : List α → α → Prop} :
    (∃ before b after, a :: l = before ++ b :: after ∧ P before b) ↔
      P [] a ∨ ∃ before b after, l = before ++ b :: after ∧ P (a :: before) b := by
  constructor
  · rintro ⟨before, b, after, hsplit, h⟩
    cases before with
    | nil =>
      obtain ⟨rfl, rfl⟩ := List.cons.inj hsplit
      exact .inl h
    | cons first before =>
      obtain ⟨rfl, hrest⟩ := List.cons.inj hsplit
      exact .inr ⟨before, b, after, hrest, h⟩
  · rintro (h | ⟨before, b, after, rfl, h⟩)
    · exact ⟨[], a, l, rfl, h⟩
    · exact ⟨a :: before, b, after, rfl, h⟩

/-- A filter is handed what the filters before it have made of the value. -/
theorem mem_traceFilterList_iff {w : Value} (entries : List Value) :
    ∀ v, w ∈ (traceFilterList hook table entries v).2 ↔
      ∃ before entry after, entries = before ++ entry :: after ∧
        ((∃ f, table.find entry = .ok (some f)) ∧ runFilterList hook table before v = .ok w) := by
  induction entries with
  | nil => simp [traceFilterList]
  | cons entry rest ih =>
    intro v
    rw [traceFilterList, exists_split_cons]
    cases hfind : table.find entry with
    | error e => simp [runFilterList_of_error hfind]
    | ok found =>
      cases found with
      | none =>
        simp only [runFilterList_of_none hfind]
        rw [ih]
        simp
      | some f =>
        simp only [runFilterList_of_some hfind]
        have hfirst : runFilterList hook table [] v = .ok w ↔ w = v := by
          rw [runFilterList, Except.ok.injEq, eq_comm]
        cases hvalue : f.onValue hook v with
        | error e => simp [hfirst, bind, Except.bind]
        | ok x =>
          dsimp only
          rw [List.mem_cons, ih, hfirst]
          simp [bind, Except.bind]

/-! ## Filters on texts -/

/-- A value that is no text is left alone. -/
theorem runFilters_of_not_isText {v : Value} (h : v.isText = false) (entries : List Value) :
    runFilters hook table entries v = .ok v ∧ handed hook table entries v = [] := by
  cases v with
  | str s => cases h
  | _ => exact ⟨rfl, rfl⟩

/-- On a text all filters are run. -/
theorem runFilters_of_isText {v : Value} (h : v.isText = true) (entries : List Value) :
    runFilters hook table entries v = runFilterList hook table entries v ∧
      handed hook table entries v = (traceFilterList hook table entries v).2 := by
  cases v with
  | str s => exact ⟨rfl, rfl⟩
  | _ => cases h

/-- A filter is handed what the filters before it have made of a text. -/
theorem mem_handed_iff {entries : List Value} {v w : Value} :
    w ∈ handed hook table entries v ↔ v.isText = true ∧
      ∃ before entry after, entries = before ++ entry :: after ∧
        ((∃ f, table.find entry = .ok (some f)) ∧ runFilters hook table before v = .ok w) := by
  cases htext : v.isText with
  | false => simp [(runFilters_of_not_isText htext entries).2]
  | true =>
    rw [(runFilters_of_isText htext entries).2, mem_traceFilterList_iff]
    simp only [(runFilters_of_isText htext _).1, true_and]

/-- Filters that make texts of texts leave a text. -/
theorem isText_of_keepsTexts {entries : List Value}
    (h : ∀ entry ∈ entries, table.KeepsTexts hook entry) :
    ∀ {v w : Value}, v.isText = true → runFilterList hook table entries v = .ok w →
      w.isText = true := by
  induction entries with
  | nil =>
    intro v w hv hw
    obtain rfl := Except.ok.inj hw
    exact hv
  | cons entry rest ih =>
    intro v w hv hw
    obtain ⟨hentry, hrest⟩ := List.forall_mem_cons.1 h
    cases hfind : table.find entry with
    | error e =>
      rw [runFilterList_of_error hfind] at hw
      cases hw
    | ok found =>
      cases found with
      | none =>
        rw [runFilterList_of_none hfind] at hw
        exact ih hrest hv hw
      | some f =>
        rw [runFilterList_of_some hfind] at hw
        obtain ⟨x, hx, hlast⟩ := bind_eq_ok_iff.1 hw
        cases v with
        | str s => exact ih hrest (hentry f s x hfind hx) hlast
        | _ => cases hv

/-- The filters that are always at hand make texts of texts. -/
theorem FilterTable.keepsTexts_builtin (name : String) :
    FilterTable.builtin.KeepsTexts hook (.str name) := by
  intro f s w hfind hw
  obtain ⟨l, hl, -⟩ := Entries.exists_mem_of_lookup (Except.ok.inj hfind)
  obtain ⟨g, -, heq⟩ := List.mem_map.1 hl
  obtain ⟨-, rfl⟩ := Prod.mk.inj heq
  obtain rfl := Except.ok.inj hw
  rfl

/-- Filters that are run on a value in one go do the same as in two goes exactly if what the first ones
make of a text is a text again, or else is what the others make of it. A filter is handed what those before it
have made of a text, whatever that is. If all filters make texts of texts, then the two are the same, and
nothing but texts is handed to any of them. -/
theorem runFilters_append (hook : FilterHook) (table : FilterTable) (fs gs : List Value) (v : Value) :
    (runFilters hook table (fs ++ gs) v = (runFilters hook table fs v >>= runFilters hook table gs) ↔
      (v.isText = true → ∀ w, runFilters hook table fs v = .ok w → w.isText = false →
        runFilterList hook table gs w = .ok w)) ∧
      (∀ w, w ∈ handed hook table (fs ++ gs) v ↔ v.isText = true ∧
        ∃ before entry after, fs ++ gs = before ++ entry :: after ∧
          ((∃ f, table.find entry = .ok (some f)) ∧ runFilters hook table before v = .ok w)) ∧
      ((∀ entry ∈ fs ++ gs, table.KeepsTexts hook entry) → RunsInSteps hook table fs gs v) := by
  have hsteps : runFilters hook table (fs ++ gs) v =
      (runFilters hook table fs v >>= runFilters hook table gs) ↔
        (v.isText = true → ∀ w, runFilters hook table fs v = .ok w → w.isText = false →
          runFilterList hook table gs w = .ok w) := by
    cases htext : v.isText with
    | false =>
      rw [(runFilters_of_not_isText htext _).1, (runFilters_of_not_isText htext _).1]
      have hrest : runFilters hook table gs v = .ok v := (runFilters_of_not_isText htext gs).1
      exact iff_of_true hrest.symm (fun h => absurd h Bool.false_ne_true)
    | true =>
      rw [(runFilters_of_isText htext _).1, (runFilters_of_isText htext _).1, runFilterList_append]
      cases hfirst : runFilterList hook table fs v with
      | error e => exact iff_of_true rfl (fun _ w hw => by cases hw)
      | ok w =>
        show runFilterList hook table gs w = runFilters hook table gs w ↔ _
        -- The other filters are run on what is no text in the first case only.
        cases hw : w.isText with
        | true =>
          refine iff_of_true (runFilters_of_isText hw gs).1.symm fun _ x hx hnot => ?_
          obtain rfl := Except.ok.inj hx
          cases hw.symm.trans hnot
        | false =>
          rw [(runFilters_of_not_isText hw gs).1]
          constructor
          · intro h _ x hx _
            obtain rfl := Except.ok.inj hx
            exact h
          · exact fun h => h rfl w rfl hw
  refine ⟨hsteps, fun w => mem_handed_iff, fun hkeeps => ⟨hsteps.2 fun hv w hw hnot => ?_, ?_⟩⟩
  · rw [(runFilters_of_isText hv fs).1] at hw
    have htext := isText_of_keepsTexts (fun e he => hkeeps e (List.mem_append_left gs he)) hv hw
    cases htext.symm.trans hnot
  · intro w hw
    obtain ⟨hv, before, entry, after, hsplit, -, hrun⟩ := mem_handed_iff.1 hw
    rw [(runFilters_of_isText hv before).1] at hrun
    refine isText_of_keepsTexts (fun e he => hkeeps e ?_) hv hrun
    rw [hsplit]
    exact List.mem_append_left _ he

/-- A callback that marks a text and filters that are always at hand make texts of texts, and a name that
is not at hand makes nothing. -/
theorem runFilters_append_marked :
    RunsInSteps Stock.filter .builtin [.callback "exclaim", .str "trim"]
        [.str "slug", .str "uppercase"] (.str " ab") ∧
      (runFilters Stock.filter .builtin
        [.callback "exclaim", .str "trim", .str "slug", .str "uppercase"] (.str " ab")).toOption.map
          Value.text = some "AB!" := by
  have hcallback : FilterTable.builtin.KeepsTexts Stock.filter (.callback "exclaim") := by
    intro f s w hfind hw
    obtain rfl := Option.some.inj (Except.ok.inj hfind)
    obtain rfl := Except.ok.inj hw
    rfl
  refine ⟨(runFilters_append Stock.filter .builtin [.callback "exclaim", .str "trim"]
    [.str "slug", .str "uppercase"] (.str " ab")).2.2 ?_, by decide +kernel⟩
  have hnamed (name : String) : FilterTable.builtin.KeepsTexts Stock.filter (.str name) :=
    FilterTable.keepsTexts_builtin name
  simp only [List.cons_append, List.nil_append, List.forall_mem_cons]
  exact ⟨hcallback, hnamed _, hnamed _, hnamed _, List.forall_mem_nil _⟩

/-- Trimming what a callback has made of a text fails if that is its length, and in two goes the length
is left alone. -/
theorem not_runsInSteps : ¬∀ (hook : FilterHook) (table : FilterTable) (fs gs : List Value) (v : Value),
    RunsInSteps hook table fs gs v := by
  intro h
  obtain ⟨hsteps, hhanded⟩ :=
    h Stock.filter .builtin [.callback "length"] [.str "trim"] (.str "abc")
  have hfails : (runFilters Stock.filter .builtin ([.callback "length"] ++ [.str "trim"])
      (.str "abc")).toOption.isNone := by decide +kernel
  have hreturns : (runFilters Stock.filter .builtin [.callback "length"] (.str "abc") >>=
      runFilters Stock.filter .builtin [.str "trim"]).toOption.map Value.text = some "3" := by
    decide +kernel
  rw [hsteps] at hfails
  rw [Option.isNone_iff_eq_none.1 hfails] at hreturns
  cases hreturns

end ParamCheck
