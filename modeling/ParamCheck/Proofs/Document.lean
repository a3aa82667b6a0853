import ParamCheck.Document.Yaml
import ParamCheck.Proofs.Entries
import ParamCheck.Proofs.Returns

/-!
# What documents hold

A document holds scalars, sequences and mappings and nothing that only a program can supply (`Value.isData`,
`Document.isData_of_readYaml`). The keys of a mapping are pairwise different, as each of them is set in turn
(`Document.keysDiffer_of_readYaml`, `Document.keysDiffer_of_readJson`).
-/

namespace ParamCheck

namespace Value

/-- Whether a document can hold a value: no value in it is a pattern, a callback or the like, which only a
program can supply. -/
def isData : Value → Bool
  | list items | tuple items | set items => itemsData items
  | dict entries => entriesData entries
  | regex .. | callback _ | delimiters .. => false
  | _ => true
where
  /-- Every item of a sequence. -/
  itemsData : List Value → Bool
    | [] => true
    | v :: rest => v.isData && itemsData rest
  /-- Every value of a mapping. -/
  entriesData : List (Value × Value) → Bool
    | [] => true
    | (_, v) :: rest => v.isData && entriesData rest

theorem itemsData_iff {items : List Value} :
    isData.itemsData items = true ↔ ∀ v ∈ items, v.isData = true := by
  induction items with
  | nil => simp [isData.itemsData]
  | cons v rest ih => rw [isData.itemsData, Bool.and_eq_true, ih, List.forall_mem_cons]

theorem isData_list_iff {items : List Value} : (list items).isData = true ↔ ∀ v ∈ items, v.isData = true := by
  rw [isData, itemsData_iff]

theorem isData_dict_iff {entries : Entries Value} :
    (dict entries).isData = true ↔ ∀ e ∈ entries, e.2.isData = true := by
  show isData.entriesData entries = true ↔ _
  induction entries with
  | nil => simp [isData.entriesData]
  | cons e rest ih => rw [isData.entriesData, Bool.and_eq_true, ih, List.forall_mem_cons]

/-- What data lists is data. -/
theorem isData_of_mem_toList {v x : Value} (hv : v.isData = true) (hx : x ∈ v.toList) : x.isData = true := by
  cases v with
  | null => cases hx
  | list items => exact isData_list_iff.1 hv x hx
  | tuple items =>
    rw [isData, itemsData_iff] at hv
    exact hv x hx
  | _ =>
    obtain rfl := List.mem_singleton.1 hx
    exact hv

/-- No callback is data. -/
theorem isCallback_of_isData {v : Value} (h : v.isData = true) : v.isCallback = false := by
  cases v with
  | callback name => cases h
  | _ => rfl

/-- Whether a value is a scalar that a document can hold. -/
def isScalar : Value → Bool
  | null | bool _ | int _ | float _ | str _ | bytes _ | timestamp _ => true
  | _ => false

theorem isData_of_isScalar {v : Value} (h : v.isScalar = true) : v.isData = true := by
  unfold isScalar at h
  split at h
  case h_8 => cases h
  all_goals rfl

end Value

namespace Document

/-! ## Scalars -/

/-- Every scalar word stands for a scalar. -/
theorem isScalar_of_plainWords {word : String} {v : Value} (h : plainWords.lookup word = some v) :
    v.isScalar = true := by
  have hall : ∀ e ∈ plainWords, e.2.isScalar = true := by
    intro e he
    simp only [plainWords, List.mem_append, List.mem_map] at he
    rcases he with ((⟨w, -, rfl⟩ | ⟨w, -, rfl⟩) | ⟨w, -, rfl⟩) | ⟨w, -, rfl⟩ <;> rfl
  obtain ⟨before, after, heq, -⟩ := List.lookup_eq_some_iff.1 h
  exact hall (word, v) (by rw [heq]; simp)

/-- A scalar without quotes stands for a scalar. -/
theorem isScalar_of_plainValue {cs : List Char} {v : Value} (h : plainValue cs = .ok v) :
    v.isScalar = true := by
  unfold plainValue at h
  rcases Number.takeSign cs with ⟨negative, unsigned⟩
  dsimp only at h
  split at h
  · cases h
  · split at h
    · obtain rfl := Except.ok.inj h
      rfl
    · split at h
      · next hword =>
        obtain rfl := Except.ok.inj h
        exact isScalar_of_plainWords hword
      · obtain ⟨n, -, hn⟩ := bind_eq_ok_iff.1 h
        obtain rfl := Except.ok.inj hn
        rfl
      · obtain ⟨x, -, hx⟩ := bind_eq_ok_iff.1 h
        obtain rfl := Except.ok.inj hx
        rfl
      · unfold checked at h
        split at h
        · obtain rfl := Except.ok.inj h
          rfl
        · cases h
      · obtain rfl := Except.ok.inj h
        rfl

theorem isScalar_of_scalar {n : Node} {v : Value} (h : n.scalar = .ok v) : v.isScalar = true := by
  cases n with
  | plain text => exact isScalar_of_plainValue h
  | unmergeable => cases h
  | _ =>
    obtain rfl := Except.ok.inj h
    rfl

/-- What takes the place of a fault is a scalar, too. -/
theorem isScalar_getD_scalar (n : Node) : (n.scalar.toOption.getD .null).isScalar = true := by
  cases h : n.scalar with
  | error e => rfl
  | ok v => exact isScalar_of_scalar h

/-! ## Nodes -/

namespace Node

mutual

/-- The value of a node is data. -/
theorem isData_value (n : Node) : n.value.isData = true := by
  match n with
  | sequence items => exact Value.isData_list_iff.2 (isData_itemValues items)
  | mapping entries =>
    refine Value.isData_dict_iff.2 fun e he => ?_
    obtain ⟨p, hp, heq⟩ := Entries.exists_of_mem_ofPairs he
    exact heq ▸ isData_entryValues entries p hp
  | plain text => exact Value.isData_of_isScalar (isScalar_getD_scalar (plain text))
  | quoted text => rfl
  | unmergeable => rfl

theorem isData_itemValues (items : List Node) : ∀ v ∈ value.itemValues items, v.isData = true := by
  match items with
  | [] => exact List.forall_mem_nil _
  | n :: rest => exact List.forall_mem_cons.2 ⟨isData_value n, isData_itemValues rest⟩

theorem isData_entryValues (entries : List (Node × Node)) :
    ∀ p ∈ value.entryValues entries, p.2.isData = true := by
  match entries with
  | [] => exact List.forall_mem_nil _
  | (k, v) :: rest => exact List.forall_mem_cons.2 ⟨isData_value v, isData_entryValues rest⟩

end

/-- A mapping is set key by key. -/
theorem distinct_of_value {n : Node} {entries : Entries Value} (h : n.value = .dict entries) :
    entries.Distinct := by
  have hscalar : ∀ v : Value, v.isScalar = true → v ≠ .dict entries := by
    rintro v hv rfl
    cases hv
  cases n with
  | mapping pairs =>
    obtain rfl := Value.dict.inj h
    exact Entries.distinct_ofPairs _
  | sequence items => cases h
  | plain text => exact absurd h (hscalar _ (isScalar_getD_scalar (plain text)))
  | quoted text => cases h
  | unmergeable => cases h

theorem read_ok {n : Node} {v : Value} (h : n.read = .ok v) : v = n.value := by
  unfold read at h
  split at h
  · cases h
  · exact (Except.ok.inj h).symm

end Node

/-! ## Documents -/

theorem readYaml_ok {text : String} {v : Value} (h : readYaml text = .ok v) : ∃ n : Node, v = n.value := by
  unfold readYaml at h
  dsimp only at h
  split at h
  · cases h
  · obtain ⟨n, -, hn⟩ := bind_eq_ok_iff.1 h
    exact ⟨n, n.read_ok hn⟩

/-- What is read from a document is data. -/
theorem isData_of_readYaml {text : String} {v : Value} (h : readYaml text = .ok v) : v.isData = true := by
  obtain ⟨n, rfl⟩ := readYaml_ok h
  exact n.isData_value

/-- The keys of a document that is a mapping are different. -/
theorem distinct_of_readYaml {text : String} {entries : Entries Value}
    (h : readYaml text = .ok (.dict entries)) :
    entries.Distinct := by
  obtain ⟨n, hn⟩ := readYaml_ok h
  exact Node.distinct_of_value hn.symm

theorem isScalar_of_jsonWord {cs rest : List Char} {v : Value} (h : jsonWord cs = some (v, rest)) :
    v.isScalar = true := by
  unfold jsonWord at h
  obtain ⟨⟨word, w⟩, hmem, hw⟩ := List.exists_of_findSome?_eq_some h
  obtain ⟨_, -, heq⟩ := Option.map_eq_some_iff.1 hw
  obtain ⟨rfl, -⟩ := Prod.mk.inj heq
  simp only [List.mem_cons, Prod.mk.injEq, List.not_mem_nil, or_false] at hmem
  rcases hmem with ⟨-, rfl⟩ | ⟨-, rfl⟩ | ⟨-, rfl⟩ | ⟨-, rfl⟩ | ⟨-, rfl⟩ | ⟨-, rfl⟩ <;> rfl

/-- What is read at the end of a number is a whole one or a decimal one. -/
theorem isScalar_of_numberEnd {isWhole : Bool} {digits text after rest : List Char} {v : Value}
    (h : (if isWhole = true then
        match Number.readInt? digits with
        | some n => .ok (.int n, after)
        | none => .error .badValue
      else
        match Number.readFloat? text with
        | some x => .ok (.float x, after)
        | none => unreadable : Except Fault (Value × List Char)) = .ok (v, rest)) : v.isScalar = true := by
  split at h
  · split at h
    · obtain ⟨rfl, -⟩ := Prod.mk.inj (Except.ok.inj h)
      rfl
    · cases h
  · split at h
    · obtain ⟨rfl, -⟩ := Prod.mk.inj (Except.ok.inj h)
      rfl
    · cases h

theorem isScalar_of_jsonNumber {negative : Bool} {cs rest : List Char} {v : Value}
    (h : jsonNumber negative cs = .ok (v, rest)) : v.isScalar = true := by
  unfold jsonNumber at h
  dsimp only at h
  split at h
  · exact isScalar_of_numberEnd h
  · split at h
    · cases h
    · exact isScalar_of_numberEnd h

/-- The entries of an object are set key by key. -/
theorem distinct_of_jsonValue {fuel : Nat} {cs rest : List Char} {entries : Entries Value}
    (h : jsonValue fuel cs = .ok (.dict entries, rest)) : entries.Distinct := by
  have hscalar : ∀ v : Value, v.isScalar = true → v ≠ .dict entries := by
    rintro v hv rfl
    cases hv
  cases fuel with
  | zero => cases h
  | succ fuel =>
    unfold jsonValue at h
    split at h
    · next found hword =>
      obtain rfl := Except.ok.inj h
      exact absurd rfl (hscalar _ (isScalar_of_jsonWord hword))
    · split at h
      · cases h
      · split at h
        · cases h
        · obtain ⟨_, -, heq⟩ := map_eq_ok_iff.1 h
          cases heq
      · split at h
        · cases h
          exact List.Pairwise.nil
        · obtain ⟨⟨es, _⟩, -, heq⟩ := map_eq_ok_iff.1 h
          cases heq
          exact Entries.distinct_ofPairs es
      · exact absurd rfl (hscalar _ (isScalar_of_jsonNumber h))
      · split at h
        · obtain ⟨_, -, heq⟩ := map_eq_ok_iff.1 h
          cases heq
        · exact absurd rfl (hscalar _ (isScalar_of_jsonNumber h))

/-- The keys of a JSON text that is an object are different. -/
theorem distinct_of_readJson {text : String} {entries : Entries Value}
    (h : readJson text = .ok (.dict entries)) :
    entries.Distinct := by
  obtain ⟨⟨v, rest⟩, hv, hrest⟩ := bind_eq_ok_iff.1 h
  dsimp only at hrest
  split at hrest
  · obtain rfl := Except.ok.inj hrest
    exact distinct_of_jsonValue hv
  · cases hrest

end Document

end ParamCheck
