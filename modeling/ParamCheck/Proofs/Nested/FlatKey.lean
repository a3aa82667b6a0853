import Mathlib.Data.List.Infix
import Mathlib.Tactic.Common
import ParamCheck.Nested.Path
import ParamCheck.Proofs.Number.Digits

/-!
# Flat keys read back

A flat key spells a path, and `Delimiters.split` reads the pieces of the path again. This needs
marks that cannot be mistaken for one another (`Delimiters.Separate`): a text that is empty or
begins with a mark then ends whatever was read before it (`Separate.eq_nil_of_prefix`), so that no
mark is found across the end of a name or an index. `splitFrom_escapeMarks` reads a name,
`splitFrom_digits` the digits of an index, and `split_spell` a whole key.
-/

namespace ParamCheck

namespace Delimiters

/-- The three marks. -/
def all (d : Delimiters) : List (List Char) := [d.hash, d.array, d.escape]

/-- Marks that cannot be mistaken for one another, wherever they stand in a key. -/
structure Separate (d : Delimiters) : Prop where
  /-- No mark is empty. -/
  ne_nil : ∀ m ∈ d.all, m ≠ []
  /-- No mark occurs inside another one. -/
  not_inside : d.all.Pairwise fun m n => ¬m <:+: n ∧ ¬n <:+: m
  /-- No proper end of a mark begins a mark. -/
  no_overlap : ∀ m ∈ d.all, ∀ n ∈ d.all, ∀ s ∈ m.tails, s ≠ m → s ≠ [] → ¬s <+: n
  /-- No mark could be an index. -/
  not_digits : ∀ m ∈ d.all, ¬∀ c ∈ m, Text.isAsciiDigit c = true

instance (d : Delimiters) : Decidable d.Separate :=
  decidable_of_iff
    ((∀ m ∈ d.all, m ≠ []) ∧ (d.all.Pairwise fun m n => ¬m <:+: n ∧ ¬n <:+: m) ∧
      (∀ m ∈ d.all, ∀ n ∈ d.all, ∀ s ∈ m.tails, s ≠ m → s ≠ [] → ¬s <+: n) ∧
      -- The characters of a mark are gone through one by one: the quantifier over them could also be
      -- decided by going through all characters that there are.
      ∀ m ∈ d.all, ¬m.all Text.isAsciiDigit = true)
    ⟨fun ⟨h1, h2, h3, h4⟩ => ⟨h1, h2, h3, fun m hm h => h4 m hm (List.all_eq_true.2 h)⟩,
      fun ⟨h1, h2, h3, h4⟩ => ⟨h1, h2, h3, fun m hm h => h4 m hm (List.all_eq_true.1 h)⟩⟩

/-- A point, a colon and a backslash are separate. -/
example : Separate ⟨['.'], [':'], ['\\']⟩ := by decide

/-- A text before which a token ends: it is empty or begins with a mark. -/
def AtMark (d : Delimiters) (tail : List Char) : Prop := tail = [] ∨ ∃ m ∈ d.all, m <+: tail

/-- No mark of a list begins a text exactly when the search for the first one fails. -/
theorem first?_eq_none_iff {marks : List (List Char)} {cs : List Char} :
    first? marks cs = none ↔ ∀ m ∈ marks, m ≠ [] → ¬m <+: cs := by
  induction marks with
  | nil => simp [first?]
  | cons m marks ih =>
    rw [first?, List.forall_mem_cons, ← ih]
    cases h : strip? m cs with
    | some rest =>
      obtain ⟨hm, rfl⟩ := strip?_eq_some_iff.1 h
      simp [hm]
    | none =>
      have hno : m ≠ [] → ¬m <+: cs := by
        rintro hm ⟨rest, rfl⟩
        rw [strip?_eq_some_iff.2 ⟨hm, rfl⟩] at h
        cases h
      exact ⟨fun hrest => ⟨hno, hrest⟩, fun hboth => hboth.2⟩

/-- What the search finds begins the text. -/
theorem eq_append_of_first? {marks : List (List Char)} {cs mark rest : List Char}
    (h : first? marks cs = some (mark, rest)) : mark ∈ marks ∧ cs = mark ++ rest := by
  induction marks with
  | nil => simp [first?] at h
  | cons m marks ih =>
    unfold first? at h
    split at h
    · next r hr =>
      cases h
      exact ⟨List.mem_cons_self, (strip?_eq_some_iff.1 hr).2⟩
    · obtain ⟨hmem, hcs⟩ := ih h
      exact ⟨List.mem_cons_of_mem _ hmem, hcs⟩

/-- The search finds a mark that begins the text if no other one does. -/
theorem first?_append {marks : List (List Char)} {m rest : List Char} (hm : m ∈ marks)
    (hne : m ≠ []) (huniq : ∀ n ∈ marks, n <+: m ++ rest → n = m) :
    first? marks (m ++ rest) = some (m, rest) := by
  cases h : first? marks (m ++ rest) with
  | none => exact absurd (List.prefix_append m rest) (first?_eq_none_iff.1 h m hm hne)
  | some found =>
    -- Some mark is found, and only `m` can be it.
    obtain ⟨n, rest'⟩ := found
    obtain ⟨hn, heq⟩ := eq_append_of_first? h
    obtain rfl : n = m := huniq n hn ⟨rest', heq.symm⟩
    rw [List.append_cancel_left heq]

/-- The marks that an escape sequence makes literal are the three marks. -/
theorem mem_marks {d : Delimiters} {m : List Char} : m ∈ d.marks ↔ m ∈ d.all := by
  unfold marks pair all
  split
  · next h =>
    rw [← h]
    simp only [List.mem_cons, List.not_mem_nil, or_false]
    tauto
  · split <;> simp only [List.mem_cons, List.not_mem_nil, or_false] <;> tauto

/-- The delimiters are among the three marks. -/
theorem mem_all_of_mem_pair {d : Delimiters} {m : List Char} (h : m ∈ d.pair) : m ∈ d.all :=
  mem_marks.1 (List.mem_cons_of_mem _ h)

/-! ## Escaping a name -/

section Escaping

variable {d : Delimiters}

/-- The escape sequence is put before a mark that is found. -/
theorem escapeMarks_of_first? {cs m rest : List Char} (h : first? d.marks cs = some (m, rest)) :
    d.escapeMarks cs = d.escape ++ (m ++ d.escapeMarks rest) := by
  rw [escapeMarks]
  split
  · next n rest' h' =>
    rw [h] at h'
    cases h'
    rw [List.append_assoc]
  · next h' => rw [h] at h'; cases h'

/-- An empty name stays empty, if no delimiter is. -/
theorem escapeMarks_nil (hpair : [] ∉ d.pair) : d.escapeMarks [] = [] := by
  rw [escapeMarks]
  split
  · next n rest h => exact absurd (length_lt_of_first? h) (Nat.not_lt_zero _)
  · simp [hpair]

/-- A character of a name at which no mark begins stays as it is, if no delimiter is empty. -/
theorem escapeMarks_cons (hpair : [] ∉ d.pair) {c : Char} {cs : List Char}
    (h : first? d.marks (c :: cs) = none) : d.escapeMarks (c :: cs) = c :: d.escapeMarks cs := by
  rw [escapeMarks]
  split
  · next n rest h' => rw [h] at h'; cases h'
  · simp [hpair]

/-- A name is empty, or a mark that is found first and a name, or a character at which no mark begins
and a name. -/
theorem name_induction {motive : List Char → Prop} (nil : motive [])
    (mark : ∀ m rest, first? d.marks (m ++ rest) = some (m, rest) → motive rest →
      motive (m ++ rest))
    (char : ∀ c cs, first? d.marks (c :: cs) = none → motive cs → motive (c :: cs)) :
    ∀ cs, motive cs := by
  intro cs
  -- The cases are those in which a name is escaped.
  fun_induction escapeMarks d cs with
  | case1 cs m rest hfirst ih =>
    obtain ⟨-, rfl⟩ := eq_append_of_first? hfirst
    exact mark m rest hfirst ih
  | case2 => exact nil
  | case3 _ c cs hfirst ih => exact char c cs hfirst ih

end Escaping

/-! ## What separate marks give -/

namespace Separate

variable {d : Delimiters} (hd : d.Separate)

include hd

/-- A mark inside another one is that one. -/
theorem eq_of_infix {m n : List Char} (hm : m ∈ d.all) (hn : n ∈ d.all) (h : m <:+: n) :
    m = n := by
  have hp := hd.not_inside
  simp only [all, List.pairwise_cons, List.mem_cons, List.not_mem_nil, or_false, forall_eq_or_imp,
    forall_eq, false_imp_iff, implies_true, List.Pairwise.nil, and_true] at hp hm hn
  rcases hm with rfl | rfl | rfl <;> rcases hn with rfl | rfl | rfl <;> simp_all

/-- The two delimiters differ. -/
theorem hash_ne_array : d.hash ≠ d.array := by
  intro h
  have hp := hd.not_inside
  simp [all, h] at hp

/-- No delimiter is empty. -/
theorem nil_not_mem_pair : [] ∉ d.pair :=
  fun h => hd.ne_nil _ (mem_all_of_mem_pair h) rfl

/-- Of two marks that begin one text each is the other. -/
theorem eq_of_prefix {m n rest : List Char} (hm : m ∈ d.all) (hn : n ∈ d.all)
    (h : n <+: m ++ rest) : n = m := by
  -- One of the two begins the other one, and so stands inside it.
  rcases List.prefix_or_prefix_of_prefix h (List.prefix_append m rest) with hnm | hmn
  · exact hd.eq_of_infix hn hm hnm.isInfix
  · exact (hd.eq_of_infix hm hn hmn.isInfix).symm

/-- A proper end of a mark begins no text before which a token ends. -/
theorem eq_nil_of_prefix {m s tail : List Char} (hm : m ∈ d.all) (hs : s <:+ m) (hsm : s ≠ m)
    (ht : d.AtMark tail) (h : s <+: tail) : s = [] := by
  rcases ht with rfl | ⟨n, hn, hnt⟩
  · exact List.prefix_nil.1 h
  · by_contra hs0
    rcases List.prefix_or_prefix_of_prefix h hnt with hsn | hns
    · exact hd.no_overlap m hm n hn s ((List.mem_tails s m).2 hs) hsm hs0 hsn
    · -- The mark `n` would stand inside `m`, and so be `m`, which is longer than `s`.
      have hnm : n = m := hd.eq_of_infix hn hm (hns.isInfix.trans hs.isInfix)
      have h1 := hns.length_le
      rw [hnm] at h1
      exact hsm (hs.eq_of_length_le h1)

end Separate

/-! ## Reading one piece -/

section Reading

variable {d : Delimiters} (isArray : Bool) (token : List Char)

/-- A mark after an escape sequence is part of the token. -/
theorem splitFrom_escape {cs rest rest' mark : List Char} (h : strip? d.escape cs = some rest)
    (h' : first? d.marks rest = some (mark, rest')) :
    d.splitFrom isArray token cs = d.splitFrom isArray (token ++ mark) rest' := by
  rw [splitFrom]
  split
  · next r hr =>
    obtain rfl : r = rest := by rw [hr] at h; exact Option.some.inj h
    split
    · next m r' hm =>
      rw [hm] at h'
      cases h'
      rfl
    · next hm => rw [hm] at h'; cases h'
  · next hr => rw [hr] at h; cases h

/-- A delimiter ends the token. -/
theorem splitFrom_delimiter {cs rest mark : List Char} (h : strip? d.escape cs = none)
    (h' : first? d.pair cs = some (mark, rest)) :
    d.splitFrom isArray token cs =
      segment isArray token :: d.splitFrom (mark = d.array) [] rest := by
  rw [splitFrom]
  split
  · next r hr => rw [hr] at h; cases h
  · split
    · next m r hm =>
      rw [hm] at h'
      cases h'
      rfl
    · next hm => rw [hm] at h'; cases h'

/-- A character at which no mark begins is part of the token. -/
theorem splitFrom_char {c : Char} {cs : List Char} (h : first? d.marks (c :: cs) = none) :
    d.splitFrom isArray token (c :: cs) = d.splitFrom isArray (token ++ [c]) cs := by
  rw [marks, first?] at h
  cases he : strip? d.escape (c :: cs) with
  | some rest => rw [he] at h; cases h
  | none =>
    rw [he] at h
    rw [splitFrom]
    split
    · next r hr => rw [hr] at he; cases he
    · split
      · next m r hm => rw [hm] at h; cases h
      · rfl

/-- The end of a key ends the token. -/
theorem splitFrom_nil : d.splitFrom isArray token [] = [segment isArray token] := by
  have hnone : ∀ marks, first? marks [] = none := by
    intro marks
    rw [first?_eq_none_iff]
    intro m _ hne hp
    exact hne (List.prefix_nil.1 hp)
  have hstrip : strip? d.escape [] = none := by
    cases h : strip? d.escape [] with
    | none => rfl
    | some rest => exact absurd (length_lt_of_strip? h) (Nat.not_lt_zero _)
  rw [splitFrom]
  split
  · next r hr => rw [hr] at hstrip; cases hstrip
  · split
    · next m r hm => rw [hnone] at hm; cases hm
    · rfl

end Reading

/-! ## Reading names and indexes -/

namespace Separate

variable {d : Delimiters} (hd : d.Separate)

include hd

/-- An escape sequence and a mark are read as the mark. -/
theorem splitFrom_escape_append {m : List Char} (hm : m ∈ d.all) (isArray : Bool)
    (token rest : List Char) :
    d.splitFrom isArray token (d.escape ++ (m ++ rest)) =
      d.splitFrom isArray (token ++ m) rest := by
  have hescape : d.escape ∈ d.all := by simp [all]
  apply splitFrom_escape
  · exact strip?_eq_some_iff.2 ⟨hd.ne_nil _ hescape, rfl⟩
  · exact first?_append (mem_marks.2 hm) (hd.ne_nil _ hm)
      fun n hn h => hd.eq_of_prefix hm (mem_marks.1 hn) h

/-- A delimiter is read as the end of the token. -/
theorem splitFrom_delimiter_append {m : List Char} (hm : m ∈ d.pair) (isArray : Bool)
    (token rest : List Char) :
    d.splitFrom isArray token (m ++ rest) =
      segment isArray token :: d.splitFrom (m = d.array) [] rest := by
  have hall := mem_all_of_mem_pair hm
  apply splitFrom_delimiter
  · cases h : strip? d.escape (m ++ rest) with
    | none => rfl
    | some rest' =>
      -- The delimiter would be the escape sequence, which is no delimiter.
      obtain ⟨-, heq⟩ := strip?_eq_some_iff.1 h
      have he : d.escape = m := hd.eq_of_prefix hall (by simp [all]) ⟨rest', heq.symm⟩
      have hp := hd.not_inside
      unfold pair at hm
      rw [if_neg hd.hash_ne_array] at hm
      simp only [all, List.pairwise_cons, List.mem_cons, List.not_mem_nil, or_false,
        forall_eq_or_imp, forall_eq] at hp
      split at hm <;> simp only [List.mem_cons, List.not_mem_nil, or_false] at hm <;>
        rcases hm with rfl | rfl <;> simp [he] at hp
  · exact first?_append hm (hd.ne_nil _ hall)
      fun n hn h => hd.eq_of_prefix hall (mem_all_of_mem_pair hn) h

/-- What a proper end of a mark begins in a name that has been escaped, it begins in the name: the
escape sequences put in do not complete a mark. -/
theorem prefix_of_prefix_escapeMarks {m tail : List Char} (hm : m ∈ d.all) (ht : d.AtMark tail)
    (cs : List Char) : ∀ s, s <:+ m → s ≠ m → s <+: d.escapeMarks cs ++ tail → s <+: cs := by
  induction cs using name_induction (d := d) with
  | nil =>
    intro s hs hsm h
    rw [escapeMarks_nil hd.nil_not_mem_pair, List.nil_append] at h
    -- The end of a mark would begin what follows the name.
    rw [hd.eq_nil_of_prefix hm hs hsm ht h]
  | mark n rest hfirst ih =>
    intro s hs hsm h
    rw [escapeMarks_of_first? hfirst, List.append_assoc] at h
    -- An escape sequence comes first, and no end of a mark begins one.
    have hat : d.AtMark (d.escape ++ (n ++ d.escapeMarks rest ++ tail)) :=
      Or.inr ⟨d.escape, by simp [all], List.prefix_append _ _⟩
    rw [hd.eq_nil_of_prefix hm hs hsm hat h]
    exact List.nil_prefix
  | char c cs hfirst ih =>
    intro s hs hsm h
    rw [escapeMarks_cons hd.nil_not_mem_pair hfirst, List.cons_append] at h
    cases s with
    | nil => exact List.nil_prefix
    | cons c' s =>
      obtain ⟨rfl, hs'⟩ := List.cons_prefix_cons.1 h
      have hshort : s ≠ m := by
        intro hsm'
        have := hs.length_le
        rw [hsm', List.length_cons] at this
        omega
      -- What follows the first character is a shorter end of the mark.
      have hpre := ih s ((List.suffix_cons c' s).trans hs) hshort hs'
      exact List.cons_prefix_cons.2 ⟨rfl, hpre⟩

/-- A name is read back as the token that it is. -/
theorem splitFrom_escapeMarks (isArray : Bool) (cs : List Char) {tail : List Char}
    (ht : d.AtMark tail) : ∀ token, d.splitFrom isArray token (d.escapeMarks cs ++ tail) =
      d.splitFrom isArray (token ++ cs) tail := by
  induction cs using name_induction (d := d) with
  | nil =>
    intro token
    rw [escapeMarks_nil hd.nil_not_mem_pair, List.nil_append, List.append_nil]
  | mark m rest hfirst ih =>
    intro token
    have hall := mem_marks.1 (eq_append_of_first? hfirst).1
    rw [escapeMarks_of_first? hfirst, List.append_assoc, List.append_assoc,
      hd.splitFrom_escape_append hall, ih, List.append_assoc]
  | char c cs hfirst ih =>
    intro token
    have hnone : first? d.marks (c :: (d.escapeMarks cs ++ tail)) = none := by
      -- A mark at this character would be one of the name itself.
      rw [first?_eq_none_iff] at hfirst ⊢
      intro m hm hne hp
      cases m with
      | nil => exact hne rfl
      | cons c' s =>
        obtain ⟨rfl, hs⟩ := List.cons_prefix_cons.1 hp
        have hpre := hd.prefix_of_prefix_escapeMarks (mem_marks.1 hm) ht cs s
          (List.suffix_cons c' s) (by simp) hs
        exact hfirst _ hm hne (List.cons_prefix_cons.2 ⟨rfl, hpre⟩)
    rw [escapeMarks_cons hd.nil_not_mem_pair hfirst, List.cons_append,
      splitFrom_char isArray token hnone, ih, List.append_assoc, List.singleton_append]

/-- Digits are read back as the token that they are. -/
theorem splitFrom_digits (isArray : Bool) (token : List Char) {ds tail : List Char}
    (hds : ∀ c ∈ ds, Text.isAsciiDigit c = true) (ht : d.AtMark tail) :
    d.splitFrom isArray token (ds ++ tail) = d.splitFrom isArray (token ++ ds) tail := by
  induction ds generalizing token with
  | nil => simp
  | cons c ds ih =>
    rw [List.cons_append, splitFrom_char, ih, List.append_assoc]
    · rfl
    · exact fun c' hc' => hds c' (List.mem_cons_of_mem _ hc')
    · -- A mark at this digit would end among the digits, and so have no other characters.
      rw [first?_eq_none_iff]
      intro m hm hne hp
      have hall := mem_marks.1 hm
      have hdigits : m <+: c :: ds := by
        rcases List.prefix_or_prefix_of_prefix hp (List.prefix_append (c :: ds) tail) with h | h
        · exact h
        · obtain ⟨s, rfl⟩ := h
          have hs : s <+: tail := by
            rw [← List.cons_append] at hp
            exact (List.prefix_append_right_inj _).1 hp
          have hshort : s ≠ c :: ds ++ s := by
            intro h
            have := congrArg List.length h
            simp only [List.length_append, List.length_cons] at this
            omega
          rw [hd.eq_nil_of_prefix hall (List.suffix_append _ _) hshort ht hs, List.append_nil]
      exact hd.not_digits m hall fun c' hc' => hds c' (hdigits.subset hc')

end Separate

end Delimiters

/-! ## Reading a whole key -/

/-- The piece of a flat key that stands for a step. -/
def Step.segment : Step → Segment
  | key name => .name name.toList
  | index n => .position (Number.natDigits n)

/-- Different steps are spelled by different pieces. -/
theorem Step.segment_injective {s t : Step} (h : s.segment = t.segment) : s = t := by
  cases s <;> cases t <;> simp only [Step.segment, Segment.name.injEq, Segment.position.injEq,
    reduceCtorEq] at h
  · rw [String.toList_inj.1 h]
  · next n m =>
    have hn := Nat.ofDigitChars_ten_toDigits (n := n)
    have hm := Nat.ofDigitChars_ten_toDigits (n := m)
    unfold Number.natDigits at h
    rw [← hn, h, hm]

/-- The text of the rest of a path begins with a delimiter, if it is not empty. -/
theorem Delimiters.atMark_spell (d : Delimiters) (path : Path) : d.AtMark (path.flatMap d.spellStep) := by
  cases path with
  | nil => exact Or.inl rfl
  | cons s path =>
    right
    cases s with
    | key name => exact ⟨d.hash, by simp [all], by simp [spellStep, List.append_assoc]⟩
    | index n => exact ⟨d.array, by simp [all], by simp [spellStep, List.append_assoc]⟩

namespace Delimiters.Separate

variable {d : Delimiters} (hd : d.Separate)

include hd

/-- The two delimiters in the list of those that are searched for. -/
theorem mem_pair : d.hash ∈ d.pair ∧ d.array ∈ d.pair := by
  unfold pair
  rw [if_neg hd.hash_ne_array]
  split <;> simp

/-- A name in a key is read as the token that it is. -/
theorem splitFrom_escapeName (isArray : Bool) (cs : List Char) {tail : List Char}
    (ht : d.AtMark tail) :
    d.splitFrom isArray [] (d.escapeName cs ++ tail) = d.splitFrom isArray cs tail := by
  have hne : d.escape ≠ [] := hd.ne_nil _ (by simp [all])
  rw [escapeName, if_neg hne, hd.splitFrom_escapeMarks isArray cs ht, List.nil_append]

/-- The steps after the first are read back. -/
theorem splitFrom_spell (path : Path) : ∀ isArray token,
    d.splitFrom isArray token (path.flatMap d.spellStep) =
      segment isArray token :: path.map Step.segment := by
  induction path with
  | nil =>
    intro isArray token
    exact splitFrom_nil isArray token
  | cons s path ih =>
    intro isArray token
    -- The delimiter of a step ends the token before it, and the next step ends its own.
    have ht := d.atMark_spell path
    rw [List.flatMap_cons]
    cases s with
    | key name =>
      rw [spellStep, List.append_assoc, hd.splitFrom_delimiter_append hd.mem_pair.1,
        hd.splitFrom_escapeName _ _ ht, ih]
      simp [Step.segment, segment, hd.hash_ne_array]
    | index n =>
      rw [spellStep, List.append_assoc, hd.splitFrom_delimiter_append hd.mem_pair.2,
        hd.splitFrom_digits _ _ (fun c hc => Number.isAsciiDigit_of_mem_natDigits hc) ht, ih]
      simp [Step.segment, segment]

/-- The key of a path that begins with a name is read back as the path. -/
theorem split_spell (name : String) (path : Path) :
    d.split (d.spell (.key name :: path)) = (Step.key name :: path).map Step.segment := by
  rw [split, spell, hd.splitFrom_escapeName _ _ (d.atMark_spell path), hd.splitFrom_spell]
  rfl

/-- Different paths have different keys. -/
theorem spell_injective {n n' : String} {p p' : Path}
    (h : d.spell (.key n :: p) = d.spell (.key n' :: p')) :
    Step.key n :: p = Step.key n' :: p' := by
  have hsplit := hd.split_spell n p
  -- The key is read as either path.
  rw [h, hd.split_spell n' p'] at hsplit
  exact (List.map_inj_right fun _ _ => Step.segment_injective).1 hsplit.symm

end Delimiters.Separate

end ParamCheck
