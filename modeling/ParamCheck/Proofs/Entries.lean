import Mathlib.Tactic.Common
import ParamCheck.Value.Entries

/-!
# Laws of entries in order

What setting and joining entries does to their order. A mapping holds each key once
(`Entries.Distinct`); on such entries a key that is new goes to the end (`insert_of_absent`), and
entries that are set one after the other in an empty mapping are that mapping
(`ofPairs_of_distinct`). Pairs with a repeated key lose one of them, so that pairs are distinct if none
is lost (`distinct_of_length_ofPairs`).
-/

namespace ParamCheck

/-- A name that is found as a text is that text. -/
theorem Value.eq_str_of_key? {v : Value} {s : String} (h : v.key? = (Value.str s).key?) :
    v = .str s := by
  cases v with
  | str t =>
    have hkey : some (Key.str t) = some (Key.str s) := h
    injection hkey with hkey
    injection hkey with hkey
    rw [hkey]
  | float x =>
    simp only [Value.key?, Value.scalarKey?] at h
    split at h <;> cases h
  | tuple items =>
    have hkey : Value.key?.chain? items = some (Key.str s) := h
    -- The key of a tuple is a chain of keys, and a text is none.
    cases items with
    | nil => cases hkey
    | cons v rest =>
      unfold Value.key?.chain? at hkey
      split at hkey <;> cases hkey
  | _ => cases h

namespace Entries

variable {α : Type}

/-- Each key stands once. -/
def Distinct (d : Entries α) : Prop := d.Pairwise fun e f => e.1.key? ≠ f.1.key?

instance (d : Entries α) : Decidable d.Distinct :=
  inferInstanceAs (Decidable (d.Pairwise fun e f => e.1.key? ≠ f.1.key?))

/-- Whether each key stands once depends on the keys alone. -/
theorem distinct_iff_keys {d : Entries α} :
    d.Distinct ↔ d.keys.Pairwise fun k l => k.key? ≠ l.key? := by
  unfold Distinct keys
  rw [List.pairwise_map]

/-- Each key stands once if the keys are those of a mapping in which it does. -/
theorem Distinct.of_keys {β : Type} {d : Entries α} {e : Entries β} (h : d.Distinct)
    (hkeys : e.keys = d.keys) : e.Distinct := by
  rw [distinct_iff_keys] at h ⊢
  rw [hkeys]
  exact h

/-- Different keys are different values. -/
theorem Distinct.nodup_keys {d : Entries α} (h : d.Distinct) : d.keys.Nodup := by
  refine (distinct_iff_keys.1 h).imp fun {k l} hkey heq => ?_
  exact hkey (congrArg Value.key? heq)

/-- A key is missing exactly when no entry has it. -/
theorem lookup_eq_none_iff {d : Entries α} {k : Value} :
    d.lookup k = none ↔ ∀ e ∈ d, e.1.key? ≠ k.key? := by
  induction d with
  | nil => simp
  | cons e rest ih =>
    obtain ⟨l, v⟩ := e
    rw [lookup, List.forall_mem_cons]
    by_cases h : l.key? = k.key? <;> simp [h, ih]

/-- A key is present if it is the same as one of the keys. -/
theorem contains_iff {d : Entries α} {k : Value} : d.contains k = true ↔ ∃ m ∈ d.keys, m.key? = k.key? := by
  rw [contains, Option.isSome_iff_ne_none, Ne, lookup_eq_none_iff]
  simp [keys]

/-- What is found at a key is the value of an entry that has it. -/
theorem exists_mem_of_lookup {d : Entries α} {k : Value} {v : α} (h : d.lookup k = some v) :
    ∃ l, (l, v) ∈ d ∧ l.key? = k.key? := by
  induction d with
  | nil => simp at h
  | cons e rest ih =>
    obtain ⟨l, w⟩ := e
    rw [lookup] at h
    split at h
    · next hl =>
      obtain rfl := Option.some.inj h
      exact ⟨l, List.mem_cons_self, hl⟩
    · obtain ⟨m, hm, hk⟩ := ih h
      exact ⟨m, List.mem_cons_of_mem _ hm, hk⟩

/-- What is found at a key depends on the key alone. -/
theorem lookup_congr {k l : Value} (h : k.key? = l.key?) (d : Entries α) :
    d.lookup k = d.lookup l := by
  induction d with
  | nil => rfl
  | cons e rest ih =>
    obtain ⟨m, v⟩ := e
    rw [lookup, lookup, h, ih]

/-- Entries with the same keys are the same if the same is found at each of them. -/
theorem ext_lookup {d e : Entries α} (hd : d.Distinct) (hkeys : d.keys = e.keys)
    (h : ∀ k, d.lookup k = e.lookup k) : d = e := by
  induction d generalizing e with
  | nil => exact (List.map_eq_nil_iff.1 hkeys.symm).symm
  | cons f rest ih =>
    obtain ⟨l, v⟩ := f
    obtain ⟨⟨m, w⟩, rest', rfl, hm, hrest⟩ := List.map_eq_cons_iff.1 hkeys.symm
    obtain rfl : m = l := hm
    obtain ⟨hfirst, hdistinct⟩ := List.pairwise_cons.1 hd
    have hvalue := h m
    rw [lookup, lookup, if_pos rfl, if_pos rfl] at hvalue
    obtain rfl := Option.some.inj hvalue
    refine congrArg ((m, v) :: ·) (ih hdistinct hrest.symm fun k => ?_)
    have hk := h k
    rw [lookup, lookup] at hk
    split at hk
    -- The key of the first entries is found in neither rest.
    · next hkey =>
      have hnone : Entries.lookup rest k = none :=
        lookup_eq_none_iff.2 fun e he => hkey ▸ (hfirst e he).symm
      have hnone' : Entries.lookup rest' k = none := by
        refine lookup_eq_none_iff.2 fun e he => ?_
        have hmem : e.1 ∈ rest'.map (·.1) := List.mem_map_of_mem he
        rw [hrest] at hmem
        obtain ⟨e', he', heq⟩ := List.mem_map.1 hmem
        rw [← heq, ← hkey]
        exact (hfirst e' he').symm
      rw [hnone, hnone']
    · exact hk

/-- Leaving out entries by their keys leaves out what is found at these keys. -/
theorem lookup_filter {p : Value → Bool} {k : Value}
    (hp : ∀ l : Value, l.key? = k.key? → p l = p k) (d : Entries α) :
    Entries.lookup (d.filter fun e => p e.1) k = if p k then d.lookup k else none := by
  induction d with
  | nil => simp
  | cons e rest ih =>
    obtain ⟨l, v⟩ := e
    rw [List.filter_cons, lookup]
    by_cases hl : l.key? = k.key?
    · rw [if_pos hl, hp l hl]
      split
      · rw [lookup, if_pos hl]
      · next hk => rw [ih, if_neg hk]
    · rw [if_neg hl]
      split
      · rw [lookup, if_neg hl, ih]
      · exact ih

/-- What stands in an entry is found at its key. -/
theorem Distinct.lookup_of_mem {d : Entries α} (h : d.Distinct) {e : Value × α}
    (he : e ∈ d) : d.lookup e.1 = some e.2 := by
  induction d with
  | nil => cases he
  | cons f rest ih =>
    obtain ⟨hfirst, hrest⟩ := List.pairwise_cons.1 h
    rw [lookup]
    rcases List.mem_cons.1 he with rfl | he
    · rw [if_pos rfl]
    · rw [if_neg (hfirst e he), ih hrest he]

/-- Entries in another order stand under different keys, too. -/
theorem Distinct.perm {d e : Entries α} (hd : d.Distinct) (h : d.Perm e) : e.Distinct :=
  List.Pairwise.perm hd h fun hne => hne.symm

/-- The order of entries makes no difference to what is found. -/
theorem Distinct.lookup_perm {d e : Entries α} (hd : d.Distinct) (h : d.Perm e) (k : Value) :
    e.lookup k = d.lookup k := by
  cases hk : d.lookup k with
  | some v =>
    obtain ⟨l, hl, hkey⟩ := exists_mem_of_lookup hk
    rw [← lookup_congr hkey, (hd.perm h).lookup_of_mem (h.mem_iff.1 hl)]
  | none =>
    rw [lookup_eq_none_iff] at hk ⊢
    exact fun f hf => hk f (h.mem_iff.2 hf)

/-- A function on the values is applied to what is found. -/
theorem lookup_mapValues {β : Type} (f : α → β) (d : Entries α) (k : Value) :
    (d.mapValues f).lookup k = (d.lookup k).map f := by
  induction d with
  | nil => rfl
  | cons e rest ih =>
    obtain ⟨l, v⟩ := e
    show Entries.lookup ((l, f v) :: mapValues f rest) k = _
    rw [lookup, lookup, ih]
    split <;> rfl

/-- A function on the values keeps the keys. -/
theorem keys_mapValues {β : Type} (f : α → β) (d : Entries α) : (d.mapValues f).keys = d.keys := by
  unfold mapValues keys
  rw [List.map_map]
  rfl

/-- Functions on the values are applied one after the other. -/
theorem mapValues_mapValues {β γ : Type} (f : α → β) (g : β → γ) (d : Entries α) :
    (d.mapValues f).mapValues g = d.mapValues fun v => g (f v) := by
  unfold mapValues
  rw [List.map_map]
  rfl

/-- There is something to be found at every key. -/
theorem exists_lookup_of_mem_keys {d : Entries α} {k : Value} (h : k ∈ d.keys) :
    ∃ v, d.lookup k = some v := by
  obtain ⟨e, he, rfl⟩ := List.mem_map.1 h
  cases hd : d.lookup e.1 with
  | none => exact absurd rfl (lookup_eq_none_iff.1 hd e he)
  | some v => exact ⟨v, rfl⟩

/-- Setting a key that is present keeps the keys. -/
theorem keys_insert_of_present {d : Entries α} {k : Value} {w : α} (h : d.lookup k = some w)
    (v : α) : (d.insert k v).keys = d.keys := by
  induction d with
  | nil => simp at h
  | cons e rest ih =>
    obtain ⟨l, u⟩ := e
    rw [lookup] at h
    rw [insert]
    split at h
    · next hl =>
      rw [if_pos hl]
      rfl
    · next hl =>
      rw [if_neg hl]
      exact congrArg (l :: ·) (ih h)

/-- Of two values for one key the later one is kept. -/
theorem insert_insert (d : Entries α) (k : Value) (v w : α) :
    (d.insert k v).insert k w = d.insert k w := by
  induction d with
  | nil => simp [insert]
  | cons e rest ih =>
    obtain ⟨l, u⟩ := e
    by_cases h : l.key? = k.key?
    · rw [insert, if_pos h, insert, if_pos h, insert, if_pos h]
    · rw [insert, if_neg h, insert, if_neg h, ih, insert, if_neg h]

/-- Keys that are found alike are set alike if they are present. -/
theorem insert_congr {d : Entries α} {k l : Value} {w : α} (h : k.key? = l.key?)
    (hd : d.lookup k = some w) (v : α) : d.insert k v = d.insert l v := by
  induction d with
  | nil => cases hd
  | cons e rest ih =>
    obtain ⟨m, u⟩ := e
    rw [lookup] at hd
    rw [insert, insert, ← h]
    split
    · rfl
    · next hm =>
      rw [if_neg hm] at hd
      rw [ih hd]

/-- Setting a key to what is found there changes nothing. -/
theorem insert_of_lookup {d : Entries α} {k : Value} {v : α} (h : d.lookup k = some v) :
    d.insert k v = d := by
  induction d with
  | nil => simp at h
  | cons e rest ih =>
    obtain ⟨l, w⟩ := e
    rw [lookup] at h
    rw [insert]
    split at h
    · next hl =>
      rw [if_pos hl, Option.some.inj h]
    · next hl =>
      rw [if_neg hl, ih h]

/-- Of the entries after a key is set, all but the one with that key were there before. -/
theorem mem_insert {d : Entries α} {k : Value} {v : α} {e : Value × α} (h : e ∈ d.insert k v) :
    e ∈ d ∨ e.1.key? = k.key? ∧ e.2 = v := by
  induction d with
  | nil =>
    rw [insert, List.mem_singleton] at h
    exact .inr (h ▸ ⟨rfl, rfl⟩)
  | cons f rest ih =>
    obtain ⟨l, w⟩ := f
    rw [insert] at h
    split at h
    · next hl =>
      rcases List.mem_cons.1 h with rfl | h
      · exact .inr ⟨hl, rfl⟩
      · exact .inl (List.mem_cons_of_mem _ h)
    · rcases List.mem_cons.1 h with rfl | h
      · exact .inl List.mem_cons_self
      · exact (ih h).imp (List.mem_cons_of_mem _) id

/-- What holds of every value is kept when one of which it holds is set. -/
theorem forall_insert {P : α → Prop} {d : Entries α} (h : ∀ e ∈ d, P e.2) (k : Value) {v : α}
    (hv : P v) : ∀ e ∈ d.insert k v, P e.2 := by
  intro e he
  rcases mem_insert he with he | ⟨-, rfl⟩
  · exact h e he
  · exact hv

/-- What holds of every value holds of the one that is found. -/
theorem forall_lookup {P : α → Prop} {d : Entries α} (h : ∀ e ∈ d, P e.2) {k : Value} {v : α}
    (hv : d.lookup k = some v) : P v := by
  obtain ⟨l, hl, -⟩ := exists_mem_of_lookup hv
  exact h _ hl

/-- When a key is set, the entries stay, but the value that was found there makes way for another. -/
theorem mem_insert_of_mem {d : Entries α} {k : Value} {w : α} (h : d.lookup k = some w) (v : α)
    {e : Value × α} (he : e ∈ d) : e ∈ d.insert k v ∨ e.2 = w ∧ (e.1, v) ∈ d.insert k v := by
  induction d with
  | nil => cases he
  | cons f rest ih =>
    obtain ⟨l, u⟩ := f
    rw [lookup] at h
    rw [insert]
    split at h
    · next hl =>
      rw [if_pos hl]
      obtain rfl := Option.some.inj h
      rcases List.mem_cons.1 he with rfl | he
      · exact .inr ⟨rfl, List.mem_cons_self⟩
      · exact .inl (List.mem_cons_of_mem _ he)
    · next hl =>
      rw [if_neg hl]
      rcases List.mem_cons.1 he with rfl | he
      · exact .inl List.mem_cons_self
      · exact (ih h he).imp (List.mem_cons_of_mem _) (And.imp_right (List.mem_cons_of_mem _))

/-- A function on the values is applied to a value that is set. -/
theorem mapValues_insert {β : Type} (f : α → β) (d : Entries α) (k : Value) (v : α) :
    (d.insert k v).mapValues f = (d.mapValues f).insert k (f v) := by
  induction d with
  | nil => rfl
  | cons e rest ih =>
    obtain ⟨l, w⟩ := e
    show _ = Entries.insert ((l, f w) :: mapValues f rest) k (f v)
    rw [insert, insert]
    split
    · rfl
    · exact congrArg ((l, f w) :: ·) ih

/-- A function on the values can be applied before or after a key is removed. -/
theorem mapValues_erase {β : Type} (f : α → β) (d : Entries α) (k : Value) :
    (d.erase k).mapValues f = (d.mapValues f).erase k := by
  induction d with
  | nil => rfl
  | cons e rest ih =>
    obtain ⟨l, w⟩ := e
    show _ = Entries.erase ((l, f w) :: mapValues f rest) k
    rw [erase, erase]
    split
    · exact ih
    · exact congrArg ((l, f w) :: ·) ih

/-- Removing a key leaves out its entry. -/
theorem erase_eq_filter (d : Entries α) (k : Value) :
    d.erase k = d.filter fun e => e.1.key? ≠ k.key? := by
  induction d with
  | nil => rfl
  | cons e rest ih =>
    obtain ⟨l, v⟩ := e
    rw [erase, List.filter_cons, ih]
    split <;> simp_all

/-- What holds of every value holds of those that stay. -/
theorem forall_erase {P : α → Prop} {d : Entries α} (h : ∀ e ∈ d, P e.2) (k : Value) :
    ∀ e ∈ d.erase k, P e.2 := by
  rw [erase_eq_filter]
  exact fun e he => h e (List.mem_filter.1 he).1

/-- Each key stands once after one of them is removed. -/
theorem Distinct.erase {d : Entries α} (h : d.Distinct) (k : Value) : (d.erase k).Distinct := by
  rw [erase_eq_filter]
  exact h.filter _

/-- Joined entries are searched from the front. -/
theorem lookup_append (d e : Entries α) (k : Value) :
    Entries.lookup (d ++ e) k = (d.lookup k).or (e.lookup k) := by
  induction d with
  | nil => rfl
  | cons f rest ih =>
    obtain ⟨l, v⟩ := f
    rw [List.cons_append, lookup, lookup, ih]
    split <;> rfl

/-- A key that the first entries lack is set in the others. -/
theorem insert_append {d : Entries α} {k : Value} (h : d.lookup k = none) (e : Entries α)
    (v : α) : Entries.insert (d ++ e) k v = d ++ e.insert k v := by
  induction d with
  | nil => rfl
  | cons f rest ih =>
    obtain ⟨l, w⟩ := f
    have hl := lookup_eq_none_iff.1 h (l, w) List.mem_cons_self
    rw [lookup, if_neg hl] at h
    rw [List.cons_append, insert, if_neg hl, ih h, List.cons_append]

/-- A new key goes to the end. -/
theorem insert_of_absent {d : Entries α} {k : Value} (h : d.lookup k = none) (v : α) :
    d.insert k v = d ++ [(k, v)] := by
  have happ := insert_append h [] v
  rw [List.append_nil] at happ
  rw [happ]
  rfl

/-- Each key stands once after one of them is set. -/
theorem Distinct.insert {d : Entries α} (h : d.Distinct) (k : Value) (v : α) :
    (d.insert k v).Distinct := by
  cases hd : d.lookup k with
  | some w =>
    exact h.of_keys (keys_insert_of_present hd v)
  | none =>
    rw [lookup_eq_none_iff] at hd
    rw [insert_of_absent (lookup_eq_none_iff.2 hd)]
    refine List.pairwise_append.2 ⟨h, List.pairwise_singleton _ _, fun e he f hf => ?_⟩
    rw [List.mem_singleton.1 hf]
    exact hd e he

/-- Distinct entries that are set in a mapping without their keys are put at its end. -/
theorem foldl_insert_of_distinct {pairs : List (Value × α)} (h : Distinct pairs) :
    ∀ d : Entries α, (∀ e ∈ pairs, d.lookup e.1 = none) →
      pairs.foldl (fun d e => d.insert e.1 e.2) d = d ++ pairs := by
  induction pairs with
  | nil =>
    intro d _
    rw [List.foldl_nil, List.append_nil]
  | cons e rest ih =>
    intro d hd
    obtain ⟨he, hrest⟩ := List.pairwise_cons.1 h
    rw [List.foldl_cons, insert_of_absent (hd e List.mem_cons_self), ih hrest,
      List.append_assoc, List.singleton_append]
    intro f hf
    rw [lookup_append, hd f (List.mem_cons_of_mem _ hf), Option.none_or,
      lookup_eq_none_iff]
    simpa using he f hf

/-- Distinct pairs are the entries of the mapping that they set. -/
theorem ofPairs_of_distinct {pairs : List (Value × α)} (h : Distinct pairs) :
    Entries.ofPairs pairs = pairs := by
  have hfold := foldl_insert_of_distinct h [] fun _ _ => rfl
  rwa [List.nil_append] at hfold

/-- Pairs that are set one after the other are entries with each key once. -/
theorem distinct_ofPairs (pairs : List (Value × α)) : Distinct (Entries.ofPairs pairs) := by
  have hfold : ∀ (pairs : List (Value × α)) (d : Entries α), d.Distinct →
      Distinct (pairs.foldl (fun d e => d.insert e.1 e.2) d) := by
    intro pairs
    induction pairs with
    | nil => exact fun d hd => hd
    | cons e rest ih => exact fun d hd => ih _ (hd.insert e.1 e.2)
  exact hfold pairs [] List.Pairwise.nil

/-- Setting a key adds an entry if the key was missing, and none otherwise. -/
theorem length_insert (d : Entries α) (k : Value) (v : α) :
    (d.insert k v).length = d.length + if (d.lookup k).isSome then 0 else 1 := by
  cases hd : d.lookup k with
  | none => simp [insert_of_absent hd]
  | some w =>
    have hkeys := congrArg List.length (keys_insert_of_present hd v)
    simpa [keys] using hkeys

/-- Pairs that are set add at most one entry each. -/
theorem length_foldl_insert_le (pairs : List (Value × α)) : ∀ d : Entries α,
    (pairs.foldl (fun d e => d.insert e.1 e.2) d).length ≤ d.length + pairs.length := by
  induction pairs with
  | nil => exact fun d => Nat.le_refl _
  | cons e rest ih =>
    intro d
    have hrest := ih (d.insert e.1 e.2)
    have hfirst := length_insert d e.1 e.2
    rw [List.foldl_cons, List.length_cons]
    split at hfirst <;> omega

/-- Pairs that add an entry each have keys of their own. -/
theorem distinct_of_length_foldl_insert {pairs : List (Value × α)} : ∀ {d : Entries α}, d.Distinct →
    (pairs.foldl (fun d e => d.insert e.1 e.2) d).length = d.length + pairs.length →
      Distinct (d ++ pairs) := by
  induction pairs with
  | nil =>
    intro d hd _
    rwa [List.append_nil]
  | cons e rest ih =>
    intro d hd hlength
    rw [List.foldl_cons, List.length_cons] at hlength
    have hrest := length_foldl_insert_le rest (d.insert e.1 e.2)
    have hfirst := length_insert d e.1 e.2
    have habsent : d.lookup e.1 = none := by
      by_contra hne
      rw [if_pos (Option.isSome_iff_ne_none.2 hne)] at hfirst
      omega
    have hinsert := insert_of_absent habsent e.2
    rw [habsent, Option.isSome_none, if_neg Bool.false_ne_true] at hfirst
    have hdone := ih (hd.insert e.1 e.2) (by omega)
    rwa [hinsert, List.append_assoc, List.singleton_append] at hdone

/-- Pairs of which none is lost have keys of their own. -/
theorem distinct_of_length_ofPairs {pairs : List (Value × α)}
    (h : (Entries.ofPairs pairs).length = pairs.length) : Distinct pairs := by
  have hlength : (Entries.ofPairs pairs).length = ([] : Entries α).length + pairs.length := by
    rw [h, List.length_nil, Nat.zero_add]
  have hdistinct := distinct_of_length_foldl_insert List.Pairwise.nil hlength
  rwa [List.nil_append] at hdistinct

/-- The values of entries are values of the pairs that they are set from. -/
theorem exists_of_mem_ofPairs {pairs : List (Value × α)} {e : Value × α}
    (h : e ∈ Entries.ofPairs pairs) : ∃ p ∈ pairs, p.2 = e.2 := by
  have hfold : ∀ (rest : List (Value × α)) (d : Entries α), (∀ e ∈ d, ∃ p ∈ pairs, p.2 = e.2) →
      (∀ p ∈ rest, p ∈ pairs) →
        ∀ e ∈ rest.foldl (fun d e => d.insert e.1 e.2) d, ∃ p ∈ pairs, p.2 = e.2 := by
    intro rest
    induction rest with
    | nil => exact fun d hd _ => hd
    | cons p rest ih =>
      intro d hd hrest
      obtain ⟨hp, hrest⟩ := List.forall_mem_cons.1 hrest
      refine ih _ (fun e he => ?_) hrest
      rcases mem_insert he with he | ⟨-, hvalue⟩
      · exact hd e he
      · exact ⟨p, hp, hvalue.symm⟩
  exact hfold pairs [] (fun e he => by cases he) (fun p hp => hp) e h

/-- Setting one mapping in another one commutes with a function on their values. -/
theorem mapValues_overlay {β : Type} (f : α → β) (e : Entries α) :
    ∀ d : Entries α, (d.overlay e).mapValues f = (d.mapValues f).overlay (e.mapValues f) := by
  unfold overlay
  induction e with
  | nil => exact fun _ => rfl
  | cons p rest ih =>
    intro d
    rw [List.foldl_cons, ih, mapValues_insert]
    rfl

/-- Setting pairs one by one commutes with a function on their values. -/
theorem mapValues_ofPairs {β : Type} (f : α → β) (pairs : List (Value × α)) :
    (ofPairs pairs).mapValues f = ofPairs (mapValues f pairs) :=
  mapValues_overlay f pairs []

/-- What is found after a mapping is set in another one: what the second one has, or else what the
first one had. -/
theorem lookup_overlay {e : Entries α} (he : e.Distinct) (k : Value) :
    ∀ d : Entries α, (d.overlay e).lookup k = (e.lookup k).or (d.lookup k) := by
  unfold overlay
  induction e with
  | nil => exact fun _ => rfl
  | cons f rest ih =>
    obtain ⟨l, v⟩ := f
    intro d
    obtain ⟨hl, hrest⟩ := List.pairwise_cons.1 he
    rw [List.foldl_cons, ih hrest, lookup, lookup_insert]
    by_cases hkey : l.key? = k.key?
    · -- No later entry has the key.
      have hnone : lookup rest k = none :=
        lookup_eq_none_iff.2 fun e he => hkey ▸ (hl e he).symm
      rw [if_pos hkey, if_pos hkey, hnone]
      rfl
    · rw [if_neg hkey, if_neg hkey]

end Entries

end ParamCheck
