import ParamCheck.Value

/-!
# Entries in order

The entries of a mapping, in the order in which their keys were first set. A key finds an entry if
the two are the same key (`Value.key?`), so that `lookup_insert` and `lookup_erase` decide by
equality of keys. Setting a key that is present keeps its place and its spelling.
-/

namespace ParamCheck

/-- The entries of a mapping from values to `α`, each key once. -/
abbrev Entries (α : Type) := List (Value × α)

namespace Entries

variable {α β : Type}

/-- The value at a key. -/
def lookup : Entries α → Value → Option α
  | [], _ => none
  | (l, v) :: rest, k => if l.key? = k.key? then some v else lookup rest k

/-- Whether a key is present. -/
def contains (d : Entries α) (k : Value) : Bool := (d.lookup k).isSome

/-- Set a key. -/
def insert : Entries α → Value → α → Entries α
  | [], k, v => [(k, v)]
  | (l, w) :: rest, k, v => if l.key? = k.key? then (l, v) :: rest else (l, w) :: insert rest k v

/-- Remove a key. -/
def erase : Entries α → Value → Entries α
  | [], _ => []
  | (l, v) :: rest, k => if l.key? = k.key? then erase rest k else (l, v) :: erase rest k

/-- The keys in order. -/
def keys (d : Entries α) : List Value := d.map (·.1)

/-- Apply a function to every value. -/
def mapValues (f : α → β) (d : Entries α) : Entries β := d.map fun (k, v) => (k, f v)

/-- Set each pair in turn: a repeated key keeps its first place and takes its last value. -/
def ofPairs (pairs : List (Value × α)) : Entries α :=
  pairs.foldl (fun d (k, v) => d.insert k v) []

/-- Set every entry of the second mapping in the first. -/
def overlay (d e : Entries α) : Entries α := e.foldl (fun d (k, v) => d.insert k v) d

@[simp] theorem lookup_nil (k : Value) : lookup ([] : Entries α) k = none := rfl

theorem lookup_insert (d : Entries α) (k l : Value) (v : α) :
    (d.insert k v).lookup l = if k.key? = l.key? then some v else d.lookup l := by
  induction d with
  | nil => rfl
  | cons e rest ih =>
    obtain ⟨m, w⟩ := e
    by_cases hm : m.key? = k.key?
    · simp only [insert, hm, if_true, lookup]
      split <;> simp_all
    · simp only [insert, hm, if_false, lookup, ih]
      split
      · next h => simp [← h, Ne.symm hm]
      · rfl

theorem lookup_erase (d : Entries α) (k l : Value) :
    (d.erase k).lookup l = if k.key? = l.key? then none else d.lookup l := by
  induction d with
  | nil => simp [erase]
  | cons e rest ih =>
    obtain ⟨m, w⟩ := e
    by_cases hm : m.key? = k.key?
    · simp only [erase, hm, if_true, lookup, ih]
      split <;> simp_all
    · simp only [erase, hm, if_false, lookup, ih]
      split
      · next h => simp [← h, Ne.symm hm]
      · rfl

end Entries

end ParamCheck
